import Mathlib.Analysis.SpecialFunctions.Trigonometric.Basic
import Easel.Proofs.Drawing.Landmarks
import Easel.Proofs.Drawing.Transform

/-! The landmarks of a shape are points of it, over exact numbers. The points of the compass and the
foci are on their ellipse or in it, those of a rectangle are on its sides, and those of a triangle
are means of its vertices. Transforms carry a shape and its landmarks along, and a union contains
what its first member does, from which it has its landmarks. -/

namespace Easel

variable {K : Type} [Field K] [LinearOrder K]

/-- The square roots of what is not negative are exact, and the square of the diagonal is a half. -/
structure ExactFunctions.Rooted (f : ExactFunctions K) : Prop where
  diagonal : 2 * (f.diagonal * f.diagonal) = 1
  sqrt : ∀ x, 0 ≤ x → f.sqrt x * f.sqrt x = x

/-- A form whose landmarks are points of it: measures are greater than zero, the second axis of an
ellipse is not the longer one, a triangle has an area and a union a member. A difference may have
taken a landmark away. -/
def Form.Proper : Form K → Prop
  | .circle _ radius => 0 < radius
  | .ellipse _ major minor => 0 < major ∧ 0 < minor ∧ minor ≤ major
  | .rectangle _ width height => 0 < width ∧ 0 < height
  | .triangle v0 v1 v2 => area v0 v1 v2 ≠ 0
  | .shifted _ _ | .rotated _ _ _ => True
  | .union members => members ≠ []
  | .difference _ _ => False

/-- A shape that is of a proper form and made from such shapes only. -/
inductive Drawing.Proper (d : Drawing K) : Nat → Prop
  | made {id : Nat} {form : Form K} (hform : d.form? id = some form) (hproper : form.Proper)
      (hreferences : ∀ r ∈ form.references, d.Proper r) : d.Proper id

variable [FloorRing K] {f : ExactFunctions K} {name : String}

/-! ### Points of the compass -/

namespace Landmark

variable {center p k : Point K} {dx dy diagonal : K}

theorem exists_direction (h : @compass? K f.scalar center dx dy diagonal name = some p) :
    ∃ k, @direction? K f.scalar diagonal name = some k ∧ p.x - center.x = k.x * dx ∧
      p.y - center.y = k.y * dy := by
  obtain ⟨k, hk, rfl⟩ := Option.map_eq_some_iff.mp h
  exact ⟨k, hk, add_sub_cancel_left _ _, add_sub_cancel_left _ _⟩

variable [IsStrictOrderedRing K]

/-- A direction is not longer than one, or it goes as far as the diagonal along both axes. -/
theorem direction?_squares (h : @direction? K f.scalar diagonal name = some k) :
    k.x * k.x + k.y * k.y ≤ 1 ∨
      k.x * k.x = diagonal * diagonal ∧ k.y * k.y = diagonal * diagonal := by
  have hzero : @Scalar.zero K f.scalar = 0 := Nat.cast_zero
  have hone : @Scalar.nat K f.scalar 1 = 1 := Nat.cast_one
  unfold direction? at h
  rw [hzero, hone] at h
  split at h <;> cases h <;> simp

theorem direction?_length (hf : f.Rooted) (h : @direction? K f.scalar f.diagonal name = some k) :
    k.x * k.x + k.y * k.y ≤ 1 := by
  rcases direction?_squares h with hshort | ⟨hkx, hky⟩
  · exact hshort
  · rw [hkx, hky, ← two_mul, hf.diagonal]

/-- The points of the compass are on a circle or in it. -/
theorem compass?_le_circle (hf : f.Rooted) {radius : K}
    (h : @compass? K f.scalar center radius radius f.diagonal name = some p) :
    (p.x - center.x) * (p.x - center.x) + (p.y - center.y) * (p.y - center.y) ≤
      radius * radius := by
  obtain ⟨k, hk, hx, hy⟩ := exists_direction h
  rw [hx, hy]
  calc k.x * radius * (k.x * radius) + k.y * radius * (k.y * radius)
    _ = (k.x * k.x + k.y * k.y) * (radius * radius) := by ring
    _ ≤ radius * radius :=
      mul_le_of_le_one_left (mul_self_nonneg radius) (direction?_length hf hk)

/-- The points of the compass are on an ellipse or in it. -/
theorem compass?_le_ellipse (hf : f.Rooted)
    (h : @compass? K f.scalar center dx dy f.diagonal name = some p) :
    (p.x - center.x) * dy * ((p.x - center.x) * dy) +
      (p.y - center.y) * dx * ((p.y - center.y) * dx) ≤ dx * dy * (dx * dy) := by
  obtain ⟨k, hk, hx, hy⟩ := exists_direction h
  rw [hx, hy]
  calc k.x * dx * dy * (k.x * dx * dy) + k.y * dy * dx * (k.y * dy * dx)
    _ = (k.x * k.x + k.y * k.y) * (dx * dy * (dx * dy)) := by ring
    _ ≤ dx * dy * (dx * dy) :=
      mul_le_of_le_one_left (mul_self_nonneg (dx * dy)) (direction?_length hf hk)

/-- The points of the compass on a rectangle are not further out than its sides. -/
theorem compass?_abs_le (hdx : 0 ≤ dx) (hdy : 0 ≤ dy)
    (h : @compass? K f.scalar center dx dy 1 name = some p) :
    |p.x - center.x| ≤ dx ∧ |p.y - center.y| ≤ dy := by
  obtain ⟨k, hk, hx, hy⟩ := exists_direction h
  have hunit : |k.x| ≤ 1 ∧ |k.y| ≤ 1 := by
    rcases direction?_squares hk with hshort | ⟨hkx, hky⟩
    · rw [← one_mul (1 : K)] at hshort
      exact abs_le_of_squares zero_le_one hshort
    · rw [abs_le_one_iff_mul_self_le_one, abs_le_one_iff_mul_self_le_one, hkx, hky, one_mul]
      exact ⟨le_rfl, le_rfl⟩
  rw [hx, hy, abs_mul, abs_mul, abs_of_nonneg hdx, abs_of_nonneg hdy]
  exact ⟨mul_le_of_le_one_left hdx hunit.1, mul_le_of_le_one_left hdy hunit.2⟩

/-! ### Foci -/

/-- A point of the longer axis is in the ellipse if it is as far from the centre as a focus. -/
theorem focalDistance_le (hf : f.Rooted) {major minor : K} (hminor : 0 ≤ minor)
    (haxes : minor ≤ major) {distance : K}
    (hdistance : distance * distance =
      @focalDistance K f.scalar major minor * @focalDistance K f.scalar major minor) :
    distance * minor * (distance * minor) ≤ major * minor * (major * minor) := by
  have hsquares : minor * minor ≤ major * major := mul_self_le_mul_self hminor haxes
  have hfocal : distance * distance = major * major - minor * minor :=
    hdistance.trans (hf.sqrt _ (sub_nonneg.mpr hsquares))
  calc distance * minor * (distance * minor)
    _ = distance * distance * (minor * minor) := by ring
    _ ≤ major * major * (minor * minor) := by
      refine mul_le_mul_of_nonneg_right ?_ (mul_self_nonneg minor)
      rw [hfocal]
      exact sub_le_self _ (mul_self_nonneg minor)
    _ = major * minor * (major * minor) := by ring

theorem ellipse?_le (hf : f.Rooted) {major minor : K} (hminor : 0 ≤ minor)
    (haxes : minor ≤ major) (h : @ellipse? K f.scalar center major minor name = some p) :
    (p.x - center.x) * minor * ((p.x - center.x) * minor) +
      (p.y - center.y) * major * ((p.y - center.y) * major) ≤ major * minor * (major * minor) := by
  have hone : @Scalar.nat K f.scalar 1 = 1 := Nat.cast_one
  unfold ellipse? at h
  rw [hone] at h
  split at h
  · cases h
    have hfocus := focalDistance_le hf hminor haxes rfl
    simpa using hfocus
  · cases h
    have hfocus := focalDistance_le hf hminor haxes (neg_mul_neg _ _)
    simpa using hfocus
  · exact compass?_le_ellipse hf h

/-! ### Means -/

/-- The landmarks of a triangle are means of its vertices. -/
theorem triangle?_weights {v0 v1 v2 : Point K} (h : @triangle? K f.scalar v0 v1 v2 name = some p) :
    ∃ w0 w1 w2 : K, 0 ≤ w0 ∧ 0 ≤ w1 ∧ 0 ≤ w2 ∧ w0 + w1 + w2 = 1 ∧
      p.x = w0 * v0.x + w1 * v1.x + w2 * v2.x ∧ p.y = w0 * v0.y + w1 * v1.y + w2 * v2.y := by
  have hzero : (0 : K) ≤ 0 := le_rfl
  have hone : (0 : K) ≤ 1 := zero_le_one
  have hhalf : (0 : K) ≤ 1 / 2 := one_half_pos.le
  have hthird : (0 : K) ≤ 1 / 3 := one_div_nonneg.mpr zero_le_three
  have hmiddle (x y : K) : (x + y) / (2 : Nat) = 1 / 2 * x + 1 / 2 * y := by
    push_cast
    ring
  have hcentroid (x y z : K) : (x + y + z) / (3 : Nat) = 1 / 3 * x + 1 / 3 * y + 1 / 3 * z := by
    push_cast
    ring
  unfold triangle? at h
  split at h <;> cases h
  · exact ⟨1 / 3, 1 / 3, 1 / 3, hthird, hthird, hthird, by ring, hcentroid _ _ _, hcentroid _ _ _⟩
  · exact ⟨1, 0, 0, hone, hzero, hzero, by ring, by ring, by ring⟩
  · exact ⟨0, 1, 0, hzero, hone, hzero, by ring, by ring, by ring⟩
  · exact ⟨0, 0, 1, hzero, hzero, hone, by ring, by ring, by ring⟩
  · exact ⟨1 / 2, 1 / 2, 0, hhalf, hhalf, hzero, by ring, (hmiddle _ _).trans (by ring),
      (hmiddle _ _).trans (by ring)⟩
  · exact ⟨1 / 2, 0, 1 / 2, hhalf, hzero, hhalf, by ring, (hmiddle _ _).trans (by ring),
      (hmiddle _ _).trans (by ring)⟩
  · exact ⟨0, 1 / 2, 1 / 2, hzero, hhalf, hhalf, by ring, (hmiddle _ _).trans (by ring),
      (hmiddle _ _).trans (by ring)⟩

end Landmark

/-! ### Shapes of a drawing -/

variable [IsStrictOrderedRing K]

/-- If the shapes that a shape is made from contain their landmarks, so does the shape. -/
theorem Rule.contains_of_landmark? (hf : f.Rooted) {shape : Shape K} (hshape : shape.form.Proper)
    {contains : Nat → Point K → Bool} {landmark? : Nat → String → Option (Point K)}
    (hask : ∀ r ∈ shape.form.references, ∀ q, landmark? r name = some q → contains r q = true)
    {p : Point K} (h : ((@Rule.landmark? K f.scalar).answer shape name fun r i =>
      pure (landmark? r i) : Id (Option (Point K))).run = some p) :
    ((@Rule.contains K f.scalar).answer shape p fun r q => pure (contains r q) : Id Bool).run =
      true := by
  obtain ⟨label, form, fill⟩ := shape
  cases form with
  | circle center radius => exact decide_eq_true (Landmark.compass?_le_circle hf h)
  | ellipse center major minor =>
    obtain ⟨-, hminor, haxes⟩ := hshape
    exact decide_eq_true (Landmark.ellipse?_le hf hminor.le haxes h)
  | rectangle center width height =>
    obtain ⟨hwidth, hheight⟩ := hshape
    have hhalf {side : K} (hside : 0 < side) : 0 ≤ side / (2 : Nat) :=
      div_nonneg hside.le (Nat.cast_nonneg 2)
    have hone : @Scalar.nat K f.scalar 1 = 1 := Nat.cast_one
    simp only [Rule.landmark?] at h
    rw [hone] at h
    obtain ⟨hx, hy⟩ := Landmark.compass?_abs_le (hhalf hwidth) (hhalf hheight) h
    exact Bool.and_eq_true_iff.mpr ⟨decide_eq_true hx, decide_eq_true hy⟩
  | triangle v0 v1 v2 =>
    have hcontains : @triangleContains K f.extras.scalar v0 v1 v2 p = true :=
      triangleContains_iff_weights.mpr ⟨hshape, Landmark.triangle?_weights h⟩
    exact hcontains
  | shifted offset target =>
    obtain ⟨q, hq, rfl⟩ := Option.map_eq_some_iff.mp h
    have hback := (Transform.shift offset).cancels f q
    exact (congrArg (contains target) hback).trans (hask target (by simp [Form.references]) q hq)
  | rotated degrees pivot target =>
    obtain ⟨q, hq, rfl⟩ := Option.map_eq_some_iff.mp h
    have hback := (Transform.turn degrees pivot).cancels f q
    exact (congrArg (contains target) hback).trans (hask target (by simp [Form.references]) q hq)
  | union members =>
    rw [@Rule.contains_union K _ members f.scalar rfl]
    cases members with
    | nil => exact absurd rfl hshape
    | cons first more =>
      have hfirst : contains first p = true := hask first (by simp [Form.references]) p h
      exact List.any_eq_true.mpr ⟨first, List.mem_cons_self, hfirst⟩
  | difference base subtrahend => exact absurd hshape id

theorem Drawing.Proper.contains_of_landmark? (hf : f.Rooted) {d : Drawing K} (hd : d.Layered)
    {id : Nat} (h : d.Proper id) {p : Point K}
    (hp : @Drawing.landmark? K f.scalar d id name = some p) :
    @Drawing.contains K f.scalar d id p = true := by
  induction h generalizing p with
  | @made id form hform hproper hreferences ih =>
    obtain ⟨shape, hshape, rfl⟩ := form?_eq_some_iff.mp hform
    unfold Drawing.landmark? at hp
    unfold Drawing.contains
    rw [hd.consult_eq (@Rule.landmark?_relocatable K f.scalar) _ hshape] at hp
    rw [hd.consult_eq (@Rule.contains_relocatable K f.scalar) _ hshape]
    exact Rule.contains_of_landmark? hf hproper (fun r hr q hq => ih r hr hq) hp

/-- A shape that is made from circles, ellipses, rectangles and triangles by shifts, turns and
unions contains all of its landmarks. -/
theorem Drawing.contains_landmarks (f : ExactFunctions K) (hf : f.Rooted) {d : Drawing K}
    (hd : d.Layered) {id : Nat} (h : d.Proper id) :
    ∀ name ∈ d.landmarkNames id, ∃ p, @landmark? K f.scalar d id name = some p ∧
      @contains K f.scalar d id p = true := by
  intro name hname
  obtain ⟨p, hp⟩ := Option.isSome_iff_exists.mp
    ((@landmark?_isSome_iff K f.scalar d id name).mpr hname)
  exact ⟨p, hp, h.contains_of_landmark? hf hd hp⟩

/-! ### Real numbers -/

/-- The functions of real numbers, where angles are in degrees. -/
noncomputable def realFunctions : ExactFunctions ℝ where
  sin degrees := Real.sin (degrees * (Real.pi / 180))
  cos degrees := Real.cos (degrees * (Real.pi / 180))
  sqrt := Real.sqrt
  diagonal := 1 / √2
  onCircle degrees := by
    rw [← sq, ← sq]
    exact Real.cos_sq_add_sin_sq _
  sin_neg degrees := by rw [neg_mul, Real.sin_neg]
  cos_neg degrees := by rw [neg_mul, Real.cos_neg]

theorem rooted_realFunctions : realFunctions.Rooted where
  diagonal := by
    show 2 * (1 / √2 * (1 / √2)) = (1 : ℝ)
    rw [one_div_mul_one_div, Real.mul_self_sqrt zero_le_two, mul_one_div_cancel two_ne_zero]
  sqrt x hx := Real.mul_self_sqrt hx

/-- An ellipse that is turned, and united with a triangle. -/
noncomputable def comet : Drawing ℝ := ⟨#[
  ⟨"coma", .ellipse ⟨0, 0⟩ 5 3, none⟩,
  ⟨"turned", .rotated 30 ⟨1, 0⟩ 0, none⟩,
  ⟨"tail", .triangle ⟨4, 0⟩ ⟨9, 1⟩ ⟨9, -1⟩, none⟩,
  ⟨"comet", .union [1, 2], none⟩]⟩

theorem comet_landmarks : comet.Layered ∧ comet.Proper 3 ∧
    ∃ p, @Drawing.landmark? ℝ realFunctions.scalar comet 3 "f1" = some p ∧
      @Drawing.contains ℝ realFunctions.scalar comet 3 p = true := by
  have hd : comet.Layered := by decide
  have hcoma : comet.Proper 0 :=
    .made rfl ⟨by norm_num, by norm_num, by norm_num⟩ (List.forall_mem_nil _)
  have hturned : comet.Proper 1 := .made rfl trivial (List.forall_mem_singleton.mpr hcoma)
  have harea : area (⟨4, 0⟩ : Point ℝ) ⟨9, 1⟩ ⟨9, -1⟩ ≠ 0 := by norm_num [area]
  have htail : comet.Proper 2 := .made rfl harea (List.forall_mem_nil _)
  have hunion : comet.Proper 3 :=
    .made rfl (List.cons_ne_nil _ _)
      (List.forall_mem_cons.mpr ⟨hturned, List.forall_mem_singleton.mpr htail⟩)
  exact ⟨hd, hunion, Drawing.contains_landmarks realFunctions rooted_realFunctions hd hunion "f1"
    (by decide +kernel)⟩

end Easel
