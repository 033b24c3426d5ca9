import Mathlib.Algebra.Order.BigOperators.Group.Finset
import Mathlib.Analysis.Convex.Segment
import Mathlib.LinearAlgebra.AffineSpace.FiniteDimensional
import Mathlib.Tactic.FieldSimp
import Easel.Drawing.Geometry
import Easel.Proofs.Plane.Exact

/-! The points of a triangle over an ordered field. The sides of a triangle and a point span three
triangles, whose areas add up to that of the triangle and are the weights with which its vertices
have their mean in the point. The test for a point compares the signs of these areas, so a triangle
with an area contains the means of its vertices and nothing else. -/

namespace Easel

variable {K : Type} [Field K]

/-- A point as a vector. -/
def Point.pair {K : Type} (p : Point K) : K × K := (p.x, p.y)

/-- The area of the parallelogram on two sides of a triangle, which is negative if the vertices go
round clockwise. -/
def area (v0 v1 v2 : Point K) : K := (v1.x - v0.x) * (v2.y - v0.y) - (v2.x - v0.x) * (v1.y - v0.y)

section

variable {v0 v1 v2 p : Point K} {w0 w1 w2 : K}

/-! ### Areas -/

theorem area_add (v0 v1 v2 p : Point K) :
    area v1 v2 p + area v2 v0 p + area v0 v1 p = area v0 v1 v2 := by
  unfold area
  ring

/-- Each vertex weighs as much as the triangle of the opposite side and the point. -/
theorem area_mul_x (v0 v1 v2 p : Point K) : area v0 v1 v2 * p.x =
    area v1 v2 p * v0.x + area v2 v0 p * v1.x + area v0 v1 p * v2.x := by
  unfold area
  ring

theorem area_mul_y (v0 v1 v2 p : Point K) : area v0 v1 v2 * p.y =
    area v1 v2 p * v0.y + area v2 v0 p * v1.y + area v0 v1 p * v2.y := by
  unfold area
  ring

/-- A mean of the vertices divides the area of a triangle by the weights. -/
theorem area_of_mean (hsum : w0 + w1 + w2 = 1) (hx : p.x = w0 * v0.x + w1 * v1.x + w2 * v2.x)
    (hy : p.y = w0 * v0.y + w1 * v1.y + w2 * v2.y) : area v1 v2 p = w0 * area v0 v1 v2 ∧
      area v2 v0 p = w1 * area v0 v1 v2 ∧ area v0 v1 p = w2 * area v0 v1 v2 := by
  obtain rfl : w0 = 1 - w1 - w2 := by linear_combination hsum
  unfold area
  rw [hx, hy]
  refine ⟨?_, ?_, ?_⟩ <;> ring

/-- Vectors are parallel to one that is not zero if they span no area with it. -/
theorem exists_smul_of_cross {a b : K × K} (ha : a ≠ 0) (hcross : a.1 * b.2 - b.1 * a.2 = 0) :
    ∃ r : K, b = r • a := by
  by_cases hfirst : a.1 = 0
  · have hsecond : a.2 ≠ 0 := fun h => ha (Prod.ext hfirst h)
    refine ⟨b.2 / a.2, Prod.ext ?_ ?_⟩
    · have hzero : b.1 * a.2 = 0 := by
        rw [hfirst] at hcross
        linear_combination -hcross
      rw [Prod.smul_fst, hfirst, smul_zero]
      exact (mul_eq_zero.mp hzero).resolve_right hsecond
    · rw [Prod.smul_snd, smul_eq_mul, div_mul_cancel₀ _ hsecond]
  · refine ⟨b.1 / a.1, Prod.ext ?_ ?_⟩
    · rw [Prod.smul_fst, smul_eq_mul, div_mul_cancel₀ _ hfirst]
    · rw [Prod.smul_snd, smul_eq_mul, div_mul_eq_mul_div, eq_div_iff hfirst]
      linear_combination hcross

/-- Points are on one line if and only if they span no area. -/
theorem collinear_iff_area_eq_zero :
    Collinear K {v0.pair, v1.pair, v2.pair} ↔ area v0 v1 v2 = 0 := by
  have hparts : (∃ direction : K × K, ∀ v ∈ ({v0.pair, v1.pair, v2.pair} : Set (K × K)),
      ∃ r : K, v = r • direction +ᵥ v0.pair) ↔ ∃ direction : K × K,
        (∃ r : K, v1.pair - v0.pair = r • direction) ∧
        ∃ r : K, v2.pair - v0.pair = r • direction := by
    refine exists_congr fun direction => ?_
    simp only [Set.mem_insert_iff, Set.mem_singleton_iff, forall_eq_or_imp, forall_eq, vadd_eq_add,
      sub_eq_iff_eq_add, right_eq_add, and_iff_right_iff_imp]
    exact fun _ => ⟨0, zero_smul K direction⟩
  have harea : area v0 v1 v2 = (v1.pair - v0.pair).1 * (v2.pair - v0.pair).2 -
      (v2.pair - v0.pair).1 * (v1.pair - v0.pair).2 := rfl
  rw [collinear_iff_of_mem (Set.mem_insert v0.pair _), hparts, harea]
  generalize v1.pair - v0.pair = a
  generalize v2.pair - v0.pair = b
  constructor
  · rintro ⟨direction, ⟨r, rfl⟩, s, rfl⟩
    simp only [Prod.smul_fst, Prod.smul_snd, smul_eq_mul]
    ring
  · intro hcross
    by_cases ha : a = 0
    · exact ⟨b, ⟨0, by rw [ha, zero_smul]⟩, 1, (one_smul K b).symm⟩
    · obtain ⟨r, hr⟩ := exists_smul_of_cross ha hcross
      exact ⟨a, ⟨1, (one_smul K a).symm⟩, r, hr⟩

end

/-! ### Lines and means -/

theorem range_pair {K : Type} (v : Fin 3 → Point K) :
    Set.range (fun i => (v i).pair) = {(v 0).pair, (v 1).pair, (v 2).pair} := by
  ext q
  simp [Fin.exists_fin_succ, eq_comm]

/-- All points are on one line. -/
def OnOneLine (v : Fin 3 → Point K) : Prop := Collinear K (Set.range fun i => (v i).pair)

theorem onOneLine_comp (v : Fin 3 → Point K) (σ : Equiv.Perm (Fin 3)) :
    OnOneLine (v ∘ σ) ↔ OnOneLine v := by
  have hrange : Set.range (fun i => ((v ∘ σ) i).pair) = Set.range fun i => (v i).pair :=
    σ.surjective.range_comp fun i => (v i).pair
  rw [OnOneLine, OnOneLine, hrange]

variable [LinearOrder K]

/-- A point is a mean of others, with weights that are not negative and add up to one. -/
def IsMean (v : Fin 3 → Point K) (p : Point K) : Prop :=
  ∃ w : Fin 3 → K, (∀ i, 0 ≤ w i) ∧ ∑ i, w i = 1 ∧ p.pair = ∑ i, w i • (v i).pair

variable {v : Fin 3 → Point K} {p : Point K}

theorem isMean_iff : IsMean v p ↔ ∃ w0 w1 w2 : K, 0 ≤ w0 ∧ 0 ≤ w1 ∧ 0 ≤ w2 ∧ w0 + w1 + w2 = 1 ∧
    p.x = w0 * (v 0).x + w1 * (v 1).x + w2 * (v 2).x ∧
    p.y = w0 * (v 0).y + w1 * (v 1).y + w2 * (v 2).y := by
  simp only [IsMean, Fin.forall_fin_succ, Fin.sum_univ_three, Point.pair, Prod.ext_iff]
  constructor
  · rintro ⟨w, ⟨h0, h1, h2, -⟩, hsum, hx, hy⟩
    exact ⟨w 0, w 1, w 2, h0, h1, h2, hsum, hx, hy⟩
  · rintro ⟨w0, w1, w2, h0, h1, h2, hsum, hx, hy⟩
    exact ⟨![w0, w1, w2], ⟨h0, h1, h2, fun i => i.elim0⟩, hsum, hx, hy⟩

/-- The order of the points does not matter for their means. -/
theorem isMean_comp (σ : Equiv.Perm (Fin 3)) : IsMean (v ∘ σ) p ↔ IsMean v p := by
  have hmean (v : Fin 3 → Point K) (σ : Equiv.Perm (Fin 3)) (h : IsMean v p) :
      IsMean (v ∘ σ) p := by
    obtain ⟨w, hw, hsum, hp⟩ := h
    refine ⟨w ∘ σ, fun i => hw (σ i), ?_, ?_⟩
    · rw [← hsum]
      exact Equiv.sum_comp σ w
    · rw [hp]
      exact (Equiv.sum_comp σ fun i => w i • (v i).pair).symm
  refine ⟨fun h => ?_, hmean v σ⟩
  have hback := hmean (v ∘ σ) σ.symm h
  rwa [Function.comp_assoc, Equiv.self_comp_symm, Function.comp_id] at hback

theorem isMean_of_segment [IsStrictOrderedRing K] {i j : Fin 3}
    (h : p.pair ∈ segment K (v i).pair (v j).pair) : IsMean v p := by
  obtain ⟨a, b, ha, hb, hsum, hp⟩ := h
  refine ⟨Pi.single i a + Pi.single j b, ?_, ?_, ?_⟩
  · have hi : (0 : Fin 3 → K) ≤ Pi.single i a := Pi.single_nonneg.mpr ha
    have hj : (0 : Fin 3 → K) ≤ Pi.single j b := Pi.single_nonneg.mpr hb
    exact fun k => add_nonneg (hi k) (hj k)
  · simp [Finset.sum_add_distrib, hsum]
  · simp [Finset.sum_add_distrib, add_smul, Pi.single_apply, ite_smul, hp]

/-! ### Points of a triangle -/

variable {e : FieldExtras K} {v0 v1 v2 : Point K}

theorem side_eq_area (a b p : Point K) : @Point.side K e.scalar a b p = area a b p := by
  have hside : @Point.side K e.scalar a b p =
      (p.x - b.x) * (a.y - b.y) - (a.x - b.x) * (p.y - b.y) := rfl
  rw [hside, area]
  ring

/-- A triangle contains a point if it has an area and its sides span areas of one sign with the
point. -/
theorem triangleContains_iff : @triangleContains K e.scalar v0 v1 v2 p = true ↔
    area v0 v1 v2 ≠ 0 ∧ ((0 ≤ area v0 v1 p ∧ 0 ≤ area v1 v2 p ∧ 0 ≤ area v2 v0 p) ∨
      (area v0 v1 p ≤ 0 ∧ area v1 v2 p ≤ 0 ∧ area v2 v0 p ≤ 0)) := by
  have hzero : @Scalar.zero K e.scalar = 0 := Nat.cast_zero
  have hcontains : @triangleContains K e.scalar v0 v1 v2 p =
      if decide (area v0 v1 v2 ≤ 0) && decide (0 ≤ area v0 v1 v2) then false
      else !([area v0 v1 p, area v1 v2 p, area v2 v0 p].any (fun s => decide (s < 0)) &&
        [area v0 v1 p, area v1 v2 p, area v2 v0 p].any (fun s => decide (0 < s))) := by
    rw [← side_eq_area (e := e) v0 v1 p, ← side_eq_area (e := e) v1 v2 p,
      ← side_eq_area (e := e) v2 v0 p, ← hzero]
    rfl
  have hflat : (decide (area v0 v1 v2 ≤ 0) && decide (0 ≤ area v0 v1 v2)) = true ↔
      area v0 v1 v2 = 0 := by
    rw [Bool.and_eq_true, decide_eq_true_iff, decide_eq_true_iff, ← le_antisymm_iff]
  rw [hcontains]
  by_cases hne : area v0 v1 v2 = 0
  · simp [hne]
  · rw [if_neg (mt hflat.mp hne)]
    simp [hne, or_comm]

variable [IsStrictOrderedRing K]

/-- A triangle with an area contains the means of its vertices. -/
theorem triangleContains_iff_weights : @triangleContains K e.scalar v0 v1 v2 p = true ↔
    area v0 v1 v2 ≠ 0 ∧ ∃ w0 w1 w2 : K, 0 ≤ w0 ∧ 0 ≤ w1 ∧ 0 ≤ w2 ∧ w0 + w1 + w2 = 1 ∧
      p.x = w0 * v0.x + w1 * v1.x + w2 * v2.x ∧ p.y = w0 * v0.y + w1 * v1.y + w2 * v2.y := by
  rw [triangleContains_iff]
  refine and_congr_right fun hne => ?_
  constructor
  · intro hsigns
    refine ⟨area v1 v2 p / area v0 v1 v2, area v2 v0 p / area v0 v1 v2,
      area v0 v1 p / area v0 v1 v2, ?_⟩
    have hsum : area v1 v2 p / area v0 v1 v2 + area v2 v0 p / area v0 v1 v2 +
        area v0 v1 p / area v0 v1 v2 = 1 := by
      rw [← add_div, ← add_div, area_add, div_self hne]
    have hx : p.x = area v1 v2 p / area v0 v1 v2 * v0.x + area v2 v0 p / area v0 v1 v2 * v1.x +
        area v0 v1 p / area v0 v1 v2 * v2.x := by
      field_simp
      linear_combination area_mul_x v0 v1 v2 p
    have hy : p.y = area v1 v2 p / area v0 v1 v2 * v0.y + area v2 v0 p / area v0 v1 v2 * v1.y +
        area v0 v1 p / area v0 v1 v2 * v2.y := by
      field_simp
      linear_combination area_mul_y v0 v1 v2 p
    have hadd := area_add v0 v1 v2 p
    rcases hsigns with ⟨h2, h0, h1⟩ | ⟨h2, h0, h1⟩
    · have hpos : 0 ≤ area v0 v1 v2 := by linarith
      exact ⟨div_nonneg h0 hpos, div_nonneg h1 hpos, div_nonneg h2 hpos, hsum, hx, hy⟩
    · have hneg : area v0 v1 v2 ≤ 0 := by linarith
      exact ⟨div_nonneg_of_nonpos h0 hneg, div_nonneg_of_nonpos h1 hneg,
        div_nonneg_of_nonpos h2 hneg, hsum, hx, hy⟩
  · rintro ⟨w0, w1, w2, h0, h1, h2, hsum, hx, hy⟩
    obtain ⟨harea0, harea1, harea2⟩ := area_of_mean hsum hx hy
    rw [harea0, harea1, harea2]
    rcases le_total 0 (area v0 v1 v2) with hpos | hneg
    · exact .inl ⟨mul_nonneg h2 hpos, mul_nonneg h0 hpos, mul_nonneg h1 hpos⟩
    · exact .inr ⟨mul_nonpos_of_nonneg_of_nonpos h2 hneg, mul_nonpos_of_nonneg_of_nonpos h0 hneg,
        mul_nonpos_of_nonneg_of_nonpos h1 hneg⟩

theorem contains_iff_isMean : @triangleContains K e.scalar (v 0) (v 1) (v 2) p = true ↔
    ¬OnOneLine v ∧ IsMean v p := by
  rw [triangleContains_iff_weights, ← isMean_iff, OnOneLine, range_pair, collinear_iff_area_eq_zero]

/-- A triangle contains a point if and only if its vertices are not on one line and have a mean in
the point. So the order of the vertices does not matter, the sides and the vertices are contained,
and a triangle without area contains nothing. -/
theorem triangleContains_iff_isMean (e : FieldExtras K) (v : Fin 3 → Point K) (p : Point K) :
    (@triangleContains K e.scalar (v 0) (v 1) (v 2) p = true ↔ ¬OnOneLine v ∧ IsMean v p) ∧
    (∀ σ : Equiv.Perm (Fin 3), @triangleContains K e.scalar (v (σ 0)) (v (σ 1)) (v (σ 2)) p =
      @triangleContains K e.scalar (v 0) (v 1) (v 2) p) ∧
    (¬OnOneLine v → ∀ i j, p.pair ∈ segment K (v i).pair (v j).pair →
      @triangleContains K e.scalar (v 0) (v 1) (v 2) p = true) ∧
    (OnOneLine v → @triangleContains K e.scalar (v 0) (v 1) (v 2) p = false) := by
  refine ⟨contains_iff_isMean, fun σ => ?_, fun harea i j hp => ?_, fun hline => ?_⟩
  · have hσ : @triangleContains K e.scalar (v (σ 0)) (v (σ 1)) (v (σ 2)) p = true ↔
        ¬OnOneLine (v ∘ σ) ∧ IsMean (v ∘ σ) p :=
      contains_iff_isMean (v := v ∘ σ)
    rw [Bool.eq_iff_iff, hσ, contains_iff_isMean, onOneLine_comp, isMean_comp]
  · exact contains_iff_isMean.mpr ⟨harea, isMean_of_segment hp⟩
  · rw [Bool.eq_false_iff]
    exact fun h => (contains_iff_isMean.mp h).1 hline

/-- Functions that stand in where none are needed. -/
def noExtras : FieldExtras Rat := ⟨id, id, id, 1, id, id, fun _ => true, fun _ => 0⟩

/-- A triangle whose vertices go round clockwise. -/
def clockwise : Fin 3 → Point Rat := ![⟨0, 0⟩, ⟨0, 4⟩, ⟨4, 0⟩]

theorem clockwise_contains : ¬OnOneLine clockwise ∧ IsMean clockwise ⟨1, 2⟩ ∧
    @triangleContains Rat noExtras.scalar ⟨0, 0⟩ ⟨0, 4⟩ ⟨4, 0⟩ ⟨1, 2⟩ = true ∧
    @triangleContains Rat noExtras.scalar ⟨4, 0⟩ ⟨0, 0⟩ ⟨0, 4⟩ ⟨3, 1⟩ = true := by
  have harea : ¬OnOneLine clockwise := by
    rw [OnOneLine, range_pair, collinear_iff_area_eq_zero]
    decide +kernel
  have hmean : IsMean clockwise ⟨1, 2⟩ :=
    isMean_iff.mpr ⟨1 / 4, 1 / 2, 1 / 4, by decide +kernel⟩
  have hside : (⟨3, 1⟩ : Point Rat).pair ∈ segment Rat (clockwise 1).pair (clockwise 2).pair :=
    ⟨1 / 4, 3 / 4, by decide +kernel⟩
  obtain ⟨hcontains, -⟩ := triangleContains_iff_isMean noExtras clockwise ⟨1, 2⟩
  obtain ⟨-, horder, hsides, -⟩ := triangleContains_iff_isMean noExtras clockwise ⟨3, 1⟩
  exact ⟨harea, hmean, hcontains.mpr ⟨harea, hmean⟩,
    (horder (finRotate 3).symm).trans (hsides harea 1 2 hside)⟩

end Easel
