import Easel.Proofs.Description.Statements
import Easel.Proofs.Scene.Reachable

/-! The scenes that descriptions lead to are among those that operations lead to, and what holds of
them all. -/

namespace Easel

namespace Description

variable {l : Limits} {s : Scene} {ts rest : List Token}

theorem IsShape.lt {id : Nat} (h : IsShape s ts id rest) (hs : s.Sound) : id < s.drawing.size := by
  cases h with
  | named _ hid => exact hs.shape?_lt hid

theorem AreShapes.lt {ids : List Nat} (h : AreShapes s ts ids rest) (hs : s.Sound) :
    ∀ id ∈ ids, id < s.drawing.size := by
  induction h with
  | last hshape =>
    intro id hid
    rw [List.mem_singleton] at hid
    exact hid ▸ hshape.lt hs
  | more hshape _ ih =>
    intro id hid
    rcases List.mem_cons.mp hid with rfl | hid
    · exact hshape.lt hs
    · exact ih id hid

theorem IsForm.references_lt {k : Keyword} {form : Form Float} (h : IsForm s k ts form rest)
    (hs : s.Sound) : ∀ r ∈ form.references, r < s.drawing.size := by
  cases h with
  | circle | ellipse | rectangle | triangle =>
    intro r hr
    cases hr
  | shift _ htarget | rotate _ _ htarget =>
    intro r hr
    rw [Form.references, List.mem_singleton] at hr
    exact hr ▸ htarget.lt hs
  | union _ hmembers _ => exact hmembers.lt hs
  | difference hbase hsubtrahend =>
    intro r hr
    rcases List.mem_cons.mp hr with rfl | hr
    · exact hbase.lt hs
    · exact List.mem_singleton.mp hr ▸ hsubtrahend.lt hs

theorem IsStatement.fits {st : Statement} (h : IsStatement l s ts st rest) (hs : s.Sound) :
    s.Fits st := by
  cases h with
  | shape _ _ _ _ hform _ => exact hform.references_lt hs
  | color _ _ _ _ _ => trivial
  | fill _ _ htarget _ => exact htarget.lt hs

/-- Statements are carried out one by one, and the scene stays a reachable one. -/
theorem carryOut_reachable [Keyword.Order] (stop : Position) (hs : s.Reachable) :
    (carryOut stop s ts).scene.Reachable := by
  fun_induction carryOut stop s ts with
  | case1 => exact hs
  | case2 => exact hs
  | case3 => exact hs
  | case4 s t ts next rest hlt hread after happly progress ih =>
    have hstatement := statement_eq_ok_iff.mp hread
    exact ih (hs.apply (hstatement.fits hs.sound) happly)

theorem read_reachable [Keyword.Order] (tokens : List Token) : (read tokens).scene.Reachable := by
  rw [read]
  split
  · exact .blank 0 0
  · exact carryOut_reachable _ (.blank _ _)

end Description

namespace Scene

variable {s : Scene}

theorem reachable_of_build [Description.Keyword.Order] {file : String} {tokens : List Token}
    (h : Scene.build? file tokens = .ok s) : s.Reachable := by
  have hread := Description.read_reachable tokens
  rw [Scene.build?, Scene.ofTokens?, Description.Progress.result] at h
  split at h
  · cases h
    exact hread
  · cases h

theorem reachable_of_parse [Description.Keyword.Order] {file source : String}
    (h : Scene.parse? file source = .ok s) :
    s.Reachable := by
  obtain ⟨tokens, -, hbuild⟩ := Except.bind_eq_ok_iff.mp h
  exact reachable_of_build hbuild

theorem Sound.addShape_taken (h : s.Sound) {e : Declaration Nat} (he : e ∈ s.shapeNames.entries)
    (form : Form Float) (position : Position) :
    s.addShape e.name form position = ⟨.error e.position, s⟩ :=
  addShape_of_taken (h.names.find?_eq_some_iff.mpr ⟨he, rfl⟩)

theorem Sound.addColor_taken (h : s.Sound) {e : Declaration Color} (he : e ∈ s.colors.entries)
    (color : Color) (position : Position) :
    s.addColor e.name color position = ⟨.error e.position, s⟩ :=
  addColor_of_taken (h.colors.find?_eq_some_iff.mpr ⟨he, rfl⟩)

theorem Sound.answers (h : s.Sound) {depth id : Nat} (hid : id < s.drawing.size)
    (hdepth : id < depth) : s.drawing.Answers depth id where
  contains := Drawing.consult?_eq_some h.layered Rule.contains_local _ hid hdepth
  bounds := Drawing.consult?_eq_some h.layered Rule.bounds_local _ hid hdepth _
  landmark := Drawing.consult?_eq_some h.layered Rule.landmark?_local _ hid hdepth
  landmarkNames := Drawing.consult?_eq_some h.layered Rule.landmarkNames_local _ hid hdepth _
  outline := Drawing.consult?_eq_some h.layered Rule.outline_local _ hid hdepth _

/-- What holds of all scenes that operations or descriptions lead to: they are sound, an operation
on a taken name gives the place of the declaration and changes nothing, and all questions about
their shapes end. -/
theorem representation [Description.Keyword.Order]
    (h : s.Reachable ∨ ∃ file source, Scene.parse? file source = .ok s) :
    s.Sound ∧ s.shapeNames.names.Nodup ∧
      (∀ e ∈ s.shapeNames.entries, ∀ form position,
        s.addShape e.name form position = ⟨.error e.position, s⟩) ∧
      (∀ e ∈ s.colors.entries, ∀ color position,
        s.addColor e.name color position = ⟨.error e.position, s⟩) ∧
      ∀ id < s.drawing.size, ∀ depth > id, s.drawing.Answers depth id := by
  have hreachable : s.Reachable := by
    rcases h with h | ⟨file, source, h⟩
    · exact h
    · exact reachable_of_parse h
  have hsound := hreachable.sound
  refine ⟨hsound, hsound.names.names_nodup, ?_, ?_, ?_⟩
  · intro e he form position
    exact hsound.addShape_taken he form position
  · intro e he color position
    exact hsound.addColor_taken he color position
  · intro id hid depth hdepth
    exact hsound.answers hid hdepth

/-- A disc, and the same disc a step to the right, which is filled. -/
def discs : Scene :=
  let disc := (blank 4 4).addShape "disc" (.circle ⟨1.5, 1.5⟩ 1.0) .nowhere
  let moved := disc.scene.addShape "moved" (.shifted ⟨1.0, 0.0⟩ 0) .nowhere
  moved.scene.fill 1 ⟨255, 0, 0⟩

theorem discs_reachable : discs.Reachable := by
  refine .fill (.shape (.shape (.blank 4 4) _ _ _ ?_) _ _ _ ?_) _ ?_
  · exact nofun
  · decide +kernel
  · decide +kernel

theorem discs_representation :
    discs.Reachable ∧ discs.addShape "disc" (.union [0, 1]) .nowhere = ⟨.error .nowhere, discs⟩ ∧
      discs.drawing.Answers 2 1 := by
  obtain ⟨-, -, hshapes, -, hanswers⟩ := representation (.inl discs_reachable)
  have hdisc : (⟨"disc", 0, .nowhere⟩ : Declaration Nat) ∈ discs.shapeNames.entries := by
    decide +kernel
  exact ⟨discs_reachable, hshapes _ hdisc _ _, hanswers 1 (by decide +kernel) 2 (by decide)⟩

end Scene

end Easel
