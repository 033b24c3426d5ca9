import Easel.Proofs.Description.Instructions
import Easel.Proofs.Description.Rejection
import Easel.Proofs.Description.Representation

/-! The names in a scene. A description declares no names but texts of its tokens, so what holds of
these texts holds of the names in both tables, and of the names of the shapes in the drawing. -/

namespace Easel

namespace Scene

variable {s : Scene} {st : Statement} {P : String → Prop}

/-- What holds of all names that are declared in a scene. -/
structure AllNamed (P : String → Prop) (s : Scene) : Prop where
  shapes : ∀ name ∈ s.shapeNames.names, P name
  colors : ∀ name ∈ s.colors.names, P name

theorem allNamed_blank (width height : Nat) : (blank width height).AllNamed P := ⟨nofun, nofun⟩

theorem AllNamed.adding (h : s.AllNamed P) (hshapes : ∀ name ∈ st.shapeNames, P name)
    (hcolors : ∀ name ∈ st.colorNames, P name) : (s.adding st).AllNamed P := by
  cases st with
  | shape name position form =>
    refine ⟨?_, h.colors⟩
    rw [Scene.adding, withShape, Declarations.names_add]
    exact List.forall_mem_append.mpr ⟨h.shapes, hshapes⟩
  | color name position value =>
    refine ⟨h.shapes, ?_⟩
    rw [Scene.adding, withColor, Declarations.names_add]
    exact List.forall_mem_append.mpr ⟨h.colors, hcolors⟩
  | fill target value => exact ⟨h.shapes, h.colors⟩

/-- The shape that a name stands for has this name. -/
theorem Sound.nameOf_shape? {name : String} {id : Nat} (h : s.Sound)
    (hid : s.shape? name = some id) : s.drawing.nameOf id = name := by
  obtain ⟨shape, hshape, hname⟩ := h.exists_shape hid
  rw [Drawing.nameOf, hshape]
  exact hname

end Scene

namespace Description

variable {l : Limits} {s : Scene} {ts us rest : List Token} {st : Statement} {P : String → Prop}

/-- A statement declares texts of its tokens. -/
theorem IsStatement.declares (h : IsStatement l s ts st rest) (hts : ∀ t ∈ ts, P t.text) :
    (∀ name ∈ st.shapeNames, P name) ∧ ∀ name ∈ st.colorNames, P name := by
  cases h with
  | shape =>
    refine ⟨?_, nofun⟩
    rintro _ (_ | ⟨_, ⟨⟩⟩)
    exact hts _ (by simp)
  | color =>
    refine ⟨nofun, ?_⟩
    rintro _ (_ | ⟨_, ⟨⟩⟩)
    exact hts _ (by simp)
  | fill => exact ⟨nofun, nofun⟩

theorem carryOut_allNamed [Keyword.Order] (stop : Position) (hts : ts <:+ us)
    (hus : ∀ t ∈ us, P t.text)
    (hs : s.AllNamed P) : (carryOut stop s ts).scene.AllNamed P := by
  fun_induction carryOut stop s ts with
  | case1 => exact hs
  | case2 => exact hs
  | case3 => exact hs
  | case4 s t ts next rest hlt hread after happly progress ih =>
    have hstatement := statement_eq_ok_iff.mp hread
    obtain ⟨hshapes, hcolors⟩ := hstatement.declares fun u hu => hus u (hts.subset hu)
    obtain rfl := Except.ok.inj ((Scene.apply_eq_adding hstatement.fresh).symm.trans happly)
    exact ih ((within_statement hts).rest _ hread) (hs.adding hshapes hcolors)

/-- What holds of the texts of all tokens before the end holds of all names that have been declared
when reading stops. -/
theorem read_allNamed [Keyword.Order] {tokens : List Token} (h : ∀ t ∈ content tokens, P t.text) :
    (read tokens).scene.AllNamed P := by
  have hts : content tokens <:+ content tokens := List.suffix_rfl
  rw [read]
  split
  · exact Scene.allNamed_blank 0 0
  · next hread =>
    exact carryOut_allNamed _ ((within_canvas hts).rest _ hread) h (Scene.allNamed_blank _ _)

end Description

end Easel
