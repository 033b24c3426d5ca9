import Easel.Proofs.Diagnostic.Located
import Easel.Proofs.Drawing.Landmarks

/-! Landmarks in descriptions. A landmark is accepted behind the name of a shape if it is in the
list of the shape's landmarks, and the rejection of any other name comes with this list. -/

namespace Easel

namespace Description

variable {c : Context} {owner dot mark : Token} {rest : List Token} {id : Nat}

/-- Behind the name of a shape and a dot, the names of its landmarks are accepted and no others. -/
theorem exists_namedPoint_iff (howner : owner.kind = .name)
    (hid : c.scene.shape? owner.text = some id) (hdot : dot.kind = .dot)
    (hmark : mark.kind = .name) : (∃ r, namedPoint c (owner :: dot :: mark :: rest) = .ok r) ↔
      mark.text ∈ c.scene.drawing.landmarkNames id := by
  rw [← Drawing.landmark?_isSome_iff]
  constructor
  · rintro ⟨⟨p, behind, _⟩, hr⟩
    have hpoint : IsPoint c.scene (owner :: dot :: mark :: rest) p behind :=
      (namedPoint_eq_ok_iff howner).mp hr
    cases hpoint with
    | pair hopen _ _ _ => rw [hopen] at howner; cases howner
    | expression hopen _ _ _ => rw [hopen] at howner; cases howner
    | landmark _ hid' _ _ hpoint =>
      obtain rfl := Option.some.inj (hid.symm.trans hid')
      rw [hpoint]
      rfl
  · intro hsome
    obtain ⟨p, hp⟩ := Option.isSome_iff_exists.mp hsome
    have hpoint : IsPoint c.scene (owner :: dot :: mark :: rest) p rest :=
      .landmark howner hid hdot hmark hp
    exact ⟨⟨p, rest, hpoint.shorter⟩, (namedPoint_eq_ok_iff howner).mpr hpoint⟩

end Description

namespace Scene

open Description

/-- A landmark that the shape does not have is rejected with the list of those that it has: the
names that would have been accepted in its place. -/
theorem build?_unknownLandmark [Keyword.Order] {file : String} {tokens : List Token}
    {position : Position} {shape point : String} {help : Option String}
    (h : build? file tokens =
      .error (.rejected file position (.unknownLandmark shape point) help)) :
    ∃ id owner dot mark rest, owner :: dot :: mark :: rest <:+ content tokens ∧
      mark.position = position ∧ mark.text = point ∧
      (read tokens).scene.shape? owner.text = some id ∧
      (read tokens).scene.drawing.nameOf id = shape ∧
      help = some (landmarkAdvice (read tokens).scene id) ∧
      ∀ name, name ∈ (read tokens).scene.drawing.landmarkNames id ↔
        ∃ r, namedPoint ⟨(read tokens).scene, stop tokens⟩
          (owner :: dot :: { mark with text := name } :: rest) = .ok r := by
  obtain ⟨⟨rposition, cause, rhelp⟩, hreport, hrejects⟩ := build?_rejects h
  simp only [Rejection.diagnostic, Diagnostic.rejected.injEq, true_and] at hreport
  obtain ⟨rfl, rfl, rfl⟩ := hreport
  cases hrejects with
  | @unknownLandmark owner dot mark rest id hts howner hdot hmark hid hnone =>
    refine ⟨id, owner, dot, mark, rest, hts, rfl, rfl, hid, rfl, rfl, fun name => ?_⟩
    have hother : { mark with text := name }.kind = .name := hmark
    exact (exists_namedPoint_iff howner hid hdot hother).symm

/-- The names in the list of a shape's landmarks are those that lead to a landmark, and where
another name is rejected, this is the list that comes with the report. -/
theorem landmarks_exact [Keyword.Order] :
    (∀ {α : Type} [Scalar α] (d : Drawing α) (id : Nat) (name : String),
      (d.landmark? id name).isSome ↔ name ∈ d.landmarkNames id) ∧
    ∀ file tokens position shape point help,
      build? file tokens = .error (.rejected file position (.unknownLandmark shape point) help) →
      ∃ id owner dot mark rest, owner :: dot :: mark :: rest <:+ content tokens ∧
        mark.position = position ∧ mark.text = point ∧
        (read tokens).scene.shape? owner.text = some id ∧
        (read tokens).scene.drawing.nameOf id = shape ∧
        help = some (landmarkAdvice (read tokens).scene id) ∧
        ∀ name, name ∈ (read tokens).scene.drawing.landmarkNames id ↔
          ∃ r, namedPoint ⟨(read tokens).scene, stop tokens⟩
            (owner :: dot :: { mark with text := name } :: rest) = .ok r :=
  ⟨Drawing.landmark?_isSome_iff, fun _ _ _ _ _ _ => build?_unknownLandmark⟩

/-- A disc that is to be drawn around a focus, which only ellipses have. -/
def focused : List Token :=
  [(.name, "size"), (.number, "1"), (.number, "1"), (.name, "circ"), (.name, "disc"),
    (.openBrace, "\x7b"), (.number, "0"), (.number, "0"), (.closeBrace, "\x7d"), (.number, "1"),
    (.name, "circ"), (.name, "other"), (.name, "disc"), (.dot, "."), (.name, "f1"),
    (.number, "2")].map fun (kind, text) => ⟨kind, text, .nowhere⟩

theorem focused_landmarks :
    build? "focused.paint" focused = .error (.rejected "focused.paint" .nowhere
      (.unknownLandmark "disc" "f1") (some "'disc' has: c, n, ne, e, se, s, sw, w, nw")) ∧
    ∃ id, (read focused).scene.drawing.nameOf id = "disc" ∧
      "'disc' has: c, n, ne, e, se, s, sw, w, nw" = landmarkAdvice (read focused).scene id := by
  have hbuild : build? "focused.paint" focused = .error (.rejected "focused.paint" .nowhere
      (.unknownLandmark "disc" "f1") (some "'disc' has: c, n, ne, e, se, s, sw, w, nw")) := by
    decide +kernel
  obtain ⟨id, owner, dot, mark, rest, -, -, -, -, hname, hhelp, -⟩ :=
    landmarks_exact.2 _ _ _ _ _ _ hbuild
  exact ⟨hbuild, id, hname, Option.some.inj hhelp⟩

end Scene

end Easel
