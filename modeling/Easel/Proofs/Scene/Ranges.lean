import Easel.Proofs.Scene.Exact

/-! The ranges of measures in scenes that are read from sources. What reading refuses is a measure
that is not above zero, and a second axis that is longer than the first; a NaN is neither. So the
measures of a scene are in their ranges just when none of them is a NaN. -/

namespace Easel.Scene

open Description

variable {file source : String} {s : Scene}

/-- Circles, ellipses and rectangles have measures above zero, and the second axis of an ellipse is
at most as long as the first one. -/
def InRange (s : Scene) : Prop := ∀ shape ∈ s.drawing.shapes, Limits.stated.Admit shape.form

theorem describes_of_parse [Keyword.Order] (h : parse? file source = .ok s) :
    ∃ ts, Describes .kept ts s := by
  obtain ⟨tokens, -, hbuild⟩ := Except.bind_eq_ok_iff.mp h
  exact ⟨content tokens, (build_iff_describes_kept file).mp hbuild⟩

/-- A shape within the limits that are kept is within the stated ones unless one of its measures is
a NaN. -/
theorem inRange_iff_measured (h : ∀ shape ∈ s.drawing.shapes, Limits.kept.Admit shape.form) :
    s.InRange ↔ s.Measured := by
  constructor
  · intro hrange shape hshape
    exact (stated_admit_iff.mp (hrange shape hshape)).2
  · intro hmeasured shape hshape
    exact stated_admit_iff.mpr ⟨h shape hshape, hmeasured shape hshape⟩

/-- No measure of a scene that is read from a source is zero or less, and no second axis is longer
than the first. All measures are in their ranges just when they are numbers. -/
theorem parse?_inRange_iff [Keyword.Order] (h : parse? file source = .ok s) :
    (∀ shape ∈ s.drawing.shapes, Limits.kept.Admit shape.form) ∧ (s.InRange ↔ s.Measured) := by
  obtain ⟨ts, hdescribes⟩ := describes_of_parse h
  have hkept := hdescribes.limits
  exact ⟨hkept, inRange_iff_measured hkept⟩

/-- A description of a disc with the half of a coordinate for its radius. -/
def halved : String := "size 4 4 circ d \x7b2 2\x7d (/ \x7b3 0\x7d 2).x"

theorem halved_inRange : ∃ s, parse? "halved.paint" halved = .ok s ∧ s.InRange := by
  have hread : (parse? "halved.paint" halved).toOption.any (fun s =>
      s.drawing.shapes.all fun shape => shape.form.measures.all fun x => !x.isNaN) = true := by
    decide +kernel
  cases hparse : parse? "halved.paint" halved with
  | error d =>
    rw [hparse] at hread
    cases hread
  | ok s =>
    rw [hparse] at hread
    refine ⟨s, rfl, (parse?_inRange_iff hparse).2.mpr ?_⟩
    intro shape hshape x hx hnan
    simp only [Except.toOption, Option.any_some, Array.all_eq_true', List.all_eq_true] at hread
    have hnumber := hread shape hshape x hx
    rw [hnan] at hnumber
    cases hnumber

/-- A description of a disc whose radius is the difference of two infinite coordinates. Each of
them comes from a large number that is multiplied by itself three times. -/
def infinite : String :=
  "size 1 1\ncirc a \x7b1" ++ String.ofList (List.replicate 40 '0') ++
    " 0\x7d 1\ncirc b (* a.c a.c.x) 1\ncirc d (* b.c b.c.x) 1\ncirc e (* d.c d.c.x) 1\n" ++
    "circ disc \x7b0 0\x7d (- e.c e.c).x"

/-- There is a source that is read as a scene with a circle whose radius is not above zero. -/
theorem exists_parse?_not_inRange :
    ∃ s, parse? "infinite.paint" infinite = .ok s ∧ ¬s.InRange ∧
      ∃ shape ∈ s.drawing.shapes, ∃ center radius,
        shape.form = .circle center radius ∧ ¬0.0 < radius := by
  have hread : (parse? "infinite.paint" infinite).toOption.any (fun s =>
      s.drawing.shapes.any fun shape =>
        match shape.form with
        | .circle _ radius => radius.isNaN
        | _ => false) = true := by
    decide +kernel
  cases hparse : parse? "infinite.paint" infinite with
  | error d =>
    rw [hparse] at hread
    cases hread
  | ok s =>
    rw [hparse] at hread
    simp only [Except.toOption, Option.any_some, Array.any_eq_true'] at hread
    obtain ⟨⟨name, form, fill⟩, hshape, hnan⟩ := hread
    cases form with
    | circle center radius =>
      have hradius : ¬0.0 < radius := fun hlt => Binary64.not_isNaN_of_lt hlt (.inr hnan)
      exact ⟨s, rfl, fun hrange => hradius (hrange _ hshape), _, hshape, center, radius, rfl,
        hradius⟩
    | _ => cases hnan

end Easel.Scene
