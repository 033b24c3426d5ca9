import Mathlib.Data.Rat.Floor
import Easel.Proofs.Description.Acceptance
import Easel.Proofs.Drawing.Conservative
import Easel.Proofs.Number.Exact

/-! Scenes read over exact numbers. The numbers of a drawing are replaced by their exact values; if
they are finite, the limits that are kept in reading hold of these as well, and so the boxes around
the shapes enclose them. -/

namespace Easel

variable {α β : Type}

def Point.map (g : α → β) (p : Point α) : Point β := ⟨g p.x, g p.y⟩

namespace Form

/-- The form with other numbers in the places of its own. -/
def map (g : α → β) : Form α → Form β
  | circle center radius => circle (center.map g) (g radius)
  | ellipse center major minor => ellipse (center.map g) (g major) (g minor)
  | rectangle center width height => rectangle (center.map g) (g width) (g height)
  | triangle v0 v1 v2 => triangle (v0.map g) (v1.map g) (v2.map g)
  | shifted offset target => shifted (offset.map g) target
  | rotated degrees pivot target => rotated (g degrees) (pivot.map g) target
  | union members => union members
  | difference base subtrahend => difference base subtrahend

/-- All numbers of a form. -/
def numbers : Form α → List α
  | circle center radius => [center.x, center.y, radius]
  | ellipse center major minor => [center.x, center.y, major, minor]
  | rectangle center width height => [center.x, center.y, width, height]
  | triangle v0 v1 v2 => [v0.x, v0.y, v1.x, v1.y, v2.x, v2.y]
  | shifted offset _ => [offset.x, offset.y]
  | rotated degrees pivot _ => [degrees, pivot.x, pivot.y]
  | union _ | difference _ _ => []

theorem measures_map (g : α → β) (form : Form α) :
    (form.map g).measures = form.measures.map g := by
  cases form <;> rfl

theorem mem_numbers_of_mem_measures {form : Form α} {x : α} (h : x ∈ form.measures) :
    x ∈ form.numbers := by
  cases form with
  | circle | ellipse | rectangle =>
    simp only [measures, numbers, List.mem_cons] at h ⊢
    tauto
  | triangle | shifted | rotated | union | difference => cases h

end Form

namespace Drawing

/-- All numbers of a drawing are finite. -/
def Finite (d : Drawing Float) : Prop :=
  ∀ shape ∈ d.shapes, ∀ x ∈ shape.form.numbers, Binary64.isFinite x = true

instance (d : Drawing Float) : Decidable d.Finite := inferInstanceAs (Decidable (∀ _ ∈ _, _))

/-- The drawing over exact numbers. -/
def exact (K : Type) [Field K] (d : Drawing Float) : Drawing K :=
  ⟨d.shapes.map fun shape =>
    { name := shape.name, form := shape.form.map (Binary64.exact K), fill := shape.fill }⟩

end Drawing

namespace Description

variable {l : Limits} {width height : Nat}

/-- The limits that statements are read with hold of the shapes that they declare. -/
theorem AreStatements.limits {before sts : List Statement} {ts : List Token}
    (h : AreStatements l width height before ts sts) :
    ∀ st ∈ sts, ∀ d, st.shape? = some d → l.Admit d.value := by
  induction h with
  | none => exact nofun
  | more hst _ ih =>
    refine List.forall_mem_cons.mpr ⟨?_, ih⟩
    intro d hd
    cases hst with
    | shape _ _ _ _ _ hrange =>
      cases hd
      exact hrange
    | color _ _ _ _ _ => cases hd
    | fill _ _ _ _ => cases hd

theorem Describes.limits {ts : List Token} {s : Scene} (h : Describes l ts s) :
    ∀ shape ∈ s.drawing.shapes, l.Admit shape.form := by
  obtain ⟨-, hsts⟩ := h
  intro shape hshape
  simp only [Scene.ofStatements, List.mem_toArray, List.mem_mapIdx] at hshape
  obtain ⟨i, hi, rfl⟩ := hshape
  obtain ⟨st, hst, hd⟩ := List.mem_filterMap.mp (List.getElem_mem hi)
  exact hsts.limits st hst _ hd

theorem pos_of_limits {form : Form Float} (h : Limits.stated.Admit form) :
    ∀ x ∈ form.measures, 0.0 < x := by
  cases form with
  | circle center radius => exact List.forall_mem_singleton.mpr h
  | ellipse center major minor =>
    exact List.forall_mem_cons.mpr ⟨h.1, List.forall_mem_singleton.mpr h.2.1⟩
  | rectangle center width height =>
    exact List.forall_mem_cons.mpr ⟨h.1, List.forall_mem_singleton.mpr h.2⟩
  | triangle | shifted | rotated | union | difference => exact nofun

end Description

namespace Scene

variable {K : Type} [Field K] [LinearOrder K] [IsStrictOrderedRing K] {file source : String}
  {s : Scene}

theorem exact_positive [Description.Keyword.Order] (h : parse? file source = .ok s)
    (hfinite : s.drawing.Finite) :
    (s.drawing.exact K).Positive := by
  obtain ⟨tokens, -, hbuild⟩ := Except.bind_eq_ok_iff.mp h
  have hfinite' : ∀ shape ∈ s.drawing.shapes, ∀ x ∈ shape.form.measures,
      Binary64.isFinite x = true :=
    fun shape hshape x hx => hfinite shape hshape x (Form.mem_numbers_of_mem_measures hx)
  have hmeasured : s.Measured := by
    intro shape hshape x hx hnan
    have hsome := hfinite' shape hshape x hx
    rw [Binary64.isFinite, Binary64.ofFloat?_of_isNaN hnan] at hsome
    cases hsome
  have hstated := describes_stated_iff.mpr ⟨(build_iff_describes_kept file).mp hbuild, hmeasured⟩
  intro exactShape hmem y hy
  obtain ⟨shape, hshape, rfl⟩ := Array.mem_map.mp hmem
  rw [Form.measures_map] at hy
  obtain ⟨x, hx, rfl⟩ := List.mem_map.mp hy
  exact Binary64.exact_pos (Description.pos_of_limits (hstated.limits shape hshape) x hx)
    (hfinite' shape hshape x hx)

/-- Boxes are conservative over exact numbers: those of all drawings with measures above zero, and
so those of a scene that is read from a source and has finite numbers only. -/
theorem exact_conservative [Description.Keyword.Order] [FloorRing K] (f : ExactFunctions K) :
    (∀ d : Drawing K, d.Positive → d.Conservative f) ∧
      ∀ file source s, parse? file source = .ok s → s.drawing.Finite →
        (s.drawing.exact K).Conservative f :=
  ⟨fun _ hd => hd.conservative, fun _ _ _ h hfinite => (exact_positive h hfinite).conservative⟩

/-- Turns by rational numbers: to the left by the angle of the triangle with sides of three, four
and five, and to the right likewise. -/
def rationalTurns : ExactFunctions Rat where
  sin degrees := if 0 < degrees then 3 / 5 else if degrees < 0 then -(3 / 5) else 0
  cos degrees := if degrees = 0 then 1 else 4 / 5
  sqrt := id
  diagonal := 1
  onCircle degrees := by
    rcases lt_trichotomy degrees 0 with h | rfl | h
    · norm_num [h, h.ne, h.not_gt]
    · norm_num
    · norm_num [h, h.ne']
  sin_neg degrees := by
    rcases lt_trichotomy degrees 0 with h | rfl | h
    · simp [h, h.not_gt]
    · simp
    · simp [h, h.not_gt]
  cos_neg degrees := by simp

/-- A description of a rectangle and of the same rectangle after a turn. -/
def turned : String := "size 6 6 rect r \x7b3 3\x7d 2 1 rot t 30 \x7b3 3\x7d r"

theorem turned_conservative :
    ∃ s span, parse? "turned.paint" turned = .ok s ∧
      @Drawing.pixelSpan? Rat rationalTurns.scalar (s.drawing.exact Rat) 1 6 6 = some span ∧
      span.Covers 2 2 := by
  have hread : (parse? "turned.paint" turned).toOption.any (fun s =>
      decide s.drawing.Finite && @Drawing.contains Rat rationalTurns.scalar (s.drawing.exact Rat) 1
        (@Point.pixelCenter Rat rationalTurns.scalar 2 2)) = true := by
    decide +kernel
  cases hparse : parse? "turned.paint" turned with
  | error d =>
    rw [hparse] at hread
    cases hread
  | ok s =>
    rw [hparse] at hread
    obtain ⟨hfinite, hcontains⟩ := Bool.and_eq_true_iff.mp hread
    obtain ⟨span, hspan, hcovers⟩ := (exact_conservative rationalTurns).2 _ _ s hparse
      (of_decide_eq_true hfinite) 1 6 6 2 2 (by decide) (by decide) hcontains
    exact ⟨s, span, rfl, hspan, hcovers⟩

end Scene

end Easel
