import Easel.Drawing.Geometry
import Easel.Proofs.Description.Grammar
import Easel.Proofs.Drawing.Triangle
import Easel.Proofs.Drawing.Union

/-! The box around a shape encloses the shape, over exact numbers. Each form has its own reason: an
ellipse is bounded along each axis, a triangle with an area consists of means of its vertices, and a
transformed shape is where its target is after the way back. -/

namespace Easel

variable {K : Type} [Field K] [LinearOrder K]

/-! ### Forms that stand for themselves -/

section

variable [IsStrictOrderedRing K] {b : Box K} {p center : Point K}

theorem encloses_of_abs_le {dx dy : K} (hx : |p.x - center.x| ≤ dx) (hy : |p.y - center.y| ≤ dy) :
    Box.Encloses ⟨⟨center.x - dx, center.y - dy⟩, ⟨center.x + dx, center.y + dy⟩⟩ p := by
  obtain ⟨hleft, hright⟩ := abs_le.mp hx
  obtain ⟨hlower, hupper⟩ := abs_le.mp hy
  constructor <;> dsimp only <;> linarith

/-- A square in a sum of squares is not above what the sum is not above. -/
theorem abs_le_of_squares {u v r : K} (hr : 0 ≤ r) (h : u * u + v * v ≤ r * r) :
    |u| ≤ r ∧ |v| ≤ r := by
  have hu : u * u ≤ r * r := le_trans (le_add_of_nonneg_right (mul_self_nonneg v)) h
  have hv : v * v ≤ r * r := le_trans (le_add_of_nonneg_left (mul_self_nonneg u)) h
  rw [← abs_of_nonneg hr]
  exact ⟨abs_le_iff_mul_self_le.mpr hu, abs_le_iff_mul_self_le.mpr hv⟩

theorem abs_le_of_mul {u k a : K} (hk : 0 < k) (h : |u * k| ≤ a * k) : |u| ≤ a := by
  rw [abs_mul, abs_of_pos hk] at h
  exact le_of_mul_le_mul_right h hk

/-- A bound of some numbers is one of their mean. -/
theorem le_of_weights {w0 w1 w2 a0 a1 a2 x least : K} (h0 : 0 ≤ w0) (h1 : 0 ≤ w1) (h2 : 0 ≤ w2)
    (hsum : w0 + w1 + w2 = 1) (hx : x = w0 * a0 + w1 * a1 + w2 * a2) (hl0 : least ≤ a0)
    (hl1 : least ≤ a1) (hl2 : least ≤ a2) : least ≤ x := by
  have hm0 := mul_le_mul_of_nonneg_left hl0 h0
  have hm1 := mul_le_mul_of_nonneg_left hl1 h1
  have hm2 := mul_le_mul_of_nonneg_left hl2 h2
  have hleast : least = w0 * least + w1 * least + w2 * least := by
    linear_combination -least * hsum
  rw [hx, hleast]
  linarith

/-- A box that encloses three points encloses their means. -/
theorem Box.Encloses.of_weights {w0 w1 w2 : K} {v0 v1 v2 : Point K} (h0 : 0 ≤ w0) (h1 : 0 ≤ w1)
    (h2 : 0 ≤ w2) (hsum : w0 + w1 + w2 = 1) (hx : p.x = w0 * v0.x + w1 * v1.x + w2 * v2.x)
    (hy : p.y = w0 * v0.y + w1 * v1.y + w2 * v2.y) (hb0 : b.Encloses v0) (hb1 : b.Encloses v1)
    (hb2 : b.Encloses v2) : b.Encloses p where
  left := le_of_weights h0 h1 h2 hsum hx hb0.left hb1.left hb2.left
  right := by
    have hneg : -p.x = w0 * -v0.x + w1 * -v1.x + w2 * -v2.x := by
      linear_combination -hx
    exact neg_le_neg_iff.mp (le_of_weights h0 h1 h2 hsum hneg (neg_le_neg hb0.right)
      (neg_le_neg hb1.right) (neg_le_neg hb2.right))
  lower := le_of_weights h0 h1 h2 hsum hy hb0.lower hb1.lower hb2.lower
  upper := by
    have hneg : -p.y = w0 * -v0.y + w1 * -v1.y + w2 * -v2.y := by
      linear_combination -hy
    exact neg_le_neg_iff.mp (le_of_weights h0 h1 h2 hsum hneg (neg_le_neg hb0.upper)
      (neg_le_neg hb1.upper) (neg_le_neg hb2.upper))

end

variable [FloorRing K] {f : ExactFunctions K} [IsStrictOrderedRing K]

theorem encloses_triangle {v0 v1 v2 p : Point K} {b : Box K}
    (h : @triangleContains K f.scalar v0 v1 v2 p = true) (hb0 : b.Encloses v0)
    (hb1 : b.Encloses v1) (hb2 : b.Encloses v2) : b.Encloses p := by
  rw [f.scalar_eq] at h
  obtain ⟨-, w0, w1, w2, h0, h1, h2, hsum, hx, hy⟩ := triangleContains_iff_weights.mp h
  exact .of_weights h0 h1 h2 hsum hx hy hb0 hb1 hb2

/-! ### Shapes of a drawing -/

/-- If the boxes of the shapes that a shape is made from enclose what these contain, so does its own
box. -/
theorem Rule.encloses_of_contains {shape : Shape K} (hshape : ∀ x ∈ shape.form.measures, 0 < x)
    {contains : Nat → Point K → Bool} {bounds : Nat → Box K}
    (hask : ∀ r q, contains r q = true → (bounds r).Encloses q) {p : Point K}
    (h : ((@Rule.contains K f.scalar).answer shape p fun r q => pure (contains r q) : Id Bool).run =
      true) :
    ((@Rule.bounds K f.scalar).answer shape () fun r _ => pure (bounds r) :
      Id (Box K)).run.Encloses p := by
  obtain ⟨name, form, fill⟩ := shape
  cases form with
  | circle center radius =>
    have hradius : 0 < radius := hshape radius (by simp [Form.measures])
    have hin : (p.x - center.x) * (p.x - center.x) + (p.y - center.y) * (p.y - center.y) ≤
        radius * radius := of_decide_eq_true h
    obtain ⟨hx, hy⟩ := abs_le_of_squares hradius.le hin
    exact encloses_of_abs_le hx hy
  | ellipse center major minor =>
    have hmajor : 0 < major := hshape major (by simp [Form.measures])
    have hminor : 0 < minor := hshape minor (by simp [Form.measures])
    have hin : (p.x - center.x) * minor * ((p.x - center.x) * minor) +
        (p.y - center.y) * major * ((p.y - center.y) * major) ≤ major * minor * (major * minor) :=
      of_decide_eq_true h
    obtain ⟨hx, hy⟩ := abs_le_of_squares (mul_pos hmajor hminor).le hin
    rw [mul_comm major] at hy
    exact encloses_of_abs_le (abs_le_of_mul hminor hx) (abs_le_of_mul hmajor hy)
  | rectangle center width height =>
    have hin : decide (|p.x - center.x| ≤ width / (2 : Nat)) = true ∧
        decide (|p.y - center.y| ≤ height / (2 : Nat)) = true := Bool.and_eq_true_iff.mp h
    exact encloses_of_abs_le (of_decide_eq_true hin.1) (of_decide_eq_true hin.2)
  | triangle v0 v1 v2 =>
    refine encloses_triangle h ?_ ?_ ?_ <;> exact Box.encloses_around (by simp)
  | shifted offset target => exact (hask target _ h).shift
  | rotated degrees pivot target => exact (hask target _ h).rotate
  | union members =>
    rw [@Rule.contains_union K _ members f.scalar rfl] at h
    rw [@Rule.bounds_union K _ members f.scalar rfl]
    obtain ⟨r, hr, hcontains⟩ := List.any_eq_true.mp h
    cases members with
    | nil => cases hr
    | cons first more =>
      exact Box.encloses_foldl_union (List.mem_map_of_mem hr) (hask r p hcontains)
  | difference base subtrahend =>
    cases hbase : contains base p with
    | true => exact hask base p hbase
    | false =>
      simp only [Rule.contains] at h
      rw [hbase] at h
      cases h

/-- Each measure of a shape is greater than zero. -/
def Drawing.Positive (d : Drawing K) : Prop :=
  ∀ shape ∈ d.shapes, ∀ x ∈ shape.form.measures, 0 < x

theorem Drawing.bounds_encloses {d : Drawing K} (hd : d.Positive) {id : Nat} {p : Point K}
    (h : @Drawing.contains K f.scalar d id p = true) :
    (@Drawing.bounds K f.scalar d id).Encloses p := by
  induction id using Nat.strongRecOn generalizing p with
  | ind id ih =>
  unfold Drawing.contains at h
  unfold Drawing.bounds
  rw [consult] at h ⊢
  cases hget : d.shapes[id]? with
  | none =>
    rw [hget] at h
    cases h
  | some shape =>
    rw [hget] at h
    have hshape := hd shape (Array.mem_of_getElem? hget)
    refine Rule.encloses_of_contains hshape ?_ h
    intro r q hcontains
    split at hcontains
    · next hlt =>
      rw [if_pos hlt]
      exact ih r hlt hcontains
    · cases hcontains

/-- The boxes around the shapes of a drawing cover every pixel that has its centre in the shape, on
canvases of all sizes. -/
def Drawing.Conservative (f : ExactFunctions K) (d : Drawing K) : Prop :=
  ∀ id width height x y : Nat, x < width → y < height →
    @Drawing.contains K f.scalar d id (@Point.pixelCenter K f.scalar x y) = true →
      ∃ span, @Drawing.pixelSpan? K f.scalar d id width height = some span ∧ span.Covers x y

theorem Drawing.Positive.conservative {d : Drawing K} (hd : d.Positive) : d.Conservative f :=
  fun _ _ _ _ _ hx hy h => (bounds_encloses hd h).covers hx hy

end Easel
