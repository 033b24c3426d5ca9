import Easel.Proofs.Drawing.Consult
import Easel.Proofs.Scene.Declarations
import Easel.Scene.Statement

/-! Sound scenes. The shapes of a scene stand in its drawing and their names in a table beside it,
and the shapes to fill in a list; the three are kept in step by every operation on the scene. -/

namespace Easel.Scene

variable {s next : Scene} {name : String} {form : Form Float} {color : Color} {position : Position}
  {id : Nat}

/-- What holds of every scene that the operations lead to. -/
structure Sound (s : Scene) : Prop where
  layered : s.drawing.Layered
  names : s.shapeNames.Agrees
  /-- There is one entry for each shape, with its name and its place. -/
  entries : ∀ i : Nat, s.shapeNames.entries[i]?.map (fun e => (e.name, e.value)) =
    s.drawing.shapes[i]?.map fun shape => (shape.name, i)
  colors : s.colors.Agrees
  fills : ∀ id ∈ s.fills, id < s.drawing.size
  filled : ∀ (id : Nat) (shape : Shape Float), s.drawing.shapes[id]? = some shape →
    (shape.fill.isSome ↔ id ∈ s.fills)

theorem sound_blank (width height : Nat) : (blank width height).Sound where
  layered := by
    intro id shape hshape
    simp [blank, Drawing.empty] at hshape
  names := Declarations.agrees_empty
  entries := by simp [blank, Drawing.empty, Declarations.empty]
  colors := Declarations.agrees_empty
  fills := by simp [blank]
  filled := by simp [blank, Drawing.empty]

/-! ### Names -/

theorem Sound.size_eq (h : s.Sound) : s.shapeNames.entries.size = s.drawing.shapes.size := by
  have hentries := h.entries s.shapeNames.entries.size
  have hshapes := h.entries s.drawing.shapes.size
  rw [Array.getElem?_size, Option.map_none, eq_comm, Option.map_eq_none_iff,
    Array.getElem?_eq_none_iff] at hentries
  rw [Array.getElem?_size, Option.map_none, Option.map_eq_none_iff,
    Array.getElem?_eq_none_iff] at hshapes
  omega

/-- A declared name leads to a shape of the drawing, which has this name. -/
theorem Sound.exists_shape (h : s.Sound) (hid : s.shape? name = some id) :
    ∃ shape, s.drawing.shapes[id]? = some shape ∧ shape.name = name := by
  rw [shape?, Declarations.get?, Option.map_eq_some_iff] at hid
  obtain ⟨e, hfound, hvalue⟩ := hid
  obtain ⟨hmem, hname⟩ := h.names.find?_eq_some_iff.mp hfound
  obtain ⟨i, hi⟩ := Array.getElem?_of_mem hmem
  have hentry := h.entries i
  rw [hi, Option.map_some, eq_comm, Option.map_eq_some_iff] at hentry
  obtain ⟨shape, hshape, hboth⟩ := hentry
  obtain ⟨hsame, hplace⟩ := Prod.ext_iff.mp hboth
  obtain rfl : i = id := hplace.trans hvalue
  exact ⟨shape, hshape, hsame.trans hname⟩

theorem Sound.shape?_lt (h : s.Sound) (hid : s.shape? name = some id) : id < s.drawing.size := by
  obtain ⟨shape, hshape, -⟩ := h.exists_shape hid
  exact (Array.getElem?_eq_some_iff.mp hshape).1

/-! ### Adding shapes and colours -/

theorem addShape_of_taken {e : Declaration Nat} (he : s.shapeNames.find? name = some e) :
    s.addShape name form position = ⟨.error e.position, s⟩ := by
  have hposition : s.shapeNames.position? name = some e.position := by
    rw [Declarations.position?, he, Option.map_some]
  rw [addShape, hposition]

/-- The scene with one more shape. -/
def withShape (s : Scene) (name : String) (form : Form Float) (position : Position) : Scene :=
  { s with
    drawing := s.drawing.push name form
    shapeNames := s.shapeNames.add name s.drawing.size position }

theorem addShape_of_fresh (hfresh : s.shapeNames.find? name = none) :
    s.addShape name form position = ⟨.ok s.drawing.size, s.withShape name form position⟩ := by
  have hposition : s.shapeNames.position? name = none := by
    rw [Declarations.position?, hfresh, Option.map_none]
  rw [addShape, hposition]
  simp only [Declarations.declare_of_fresh hfresh]
  rfl

theorem addColor_of_taken {e : Declaration Color} (he : s.colors.find? name = some e) :
    s.addColor name color position = ⟨.error e.position, s⟩ := by
  rw [addColor, Declarations.declare_of_taken he]

theorem addColor_of_fresh (hfresh : s.colors.find? name = none) :
    s.addColor name color position =
      ⟨.ok (), { s with colors := s.colors.add name color position }⟩ := by
  rw [addColor, Declarations.declare_of_fresh hfresh]

theorem Sound.withShape (h : s.Sound) (hfresh : s.shapeNames.find? name = none)
    (hearlier : ∀ r ∈ form.references, r < s.drawing.size) :
    (s.withShape name form position).Sound where
  layered := by
    intro id shape hshape
    simp only [Scene.withShape, Drawing.push, Array.getElem?_push] at hshape
    split at hshape
    · next hid =>
      cases hshape
      rw [hid]
      exact hearlier
    · exact h.layered id shape hshape
  names := h.names.add hfresh
  entries := by
    intro i
    simp only [Scene.withShape, Drawing.push, Declarations.add, Array.getElem?_push, h.size_eq]
    rcases Decidable.em (i = s.drawing.shapes.size) with hi | hi
    · rw [if_pos hi, if_pos hi, hi]
      rfl
    · rw [if_neg hi, if_neg hi]
      exact h.entries i
  colors := h.colors
  fills := by
    intro id hid
    have hlt := h.fills id hid
    simp only [Scene.withShape, Drawing.push, Drawing.size, Array.size_push] at hlt ⊢
    omega
  filled := by
    intro id shape hshape
    simp only [Scene.withShape, Drawing.push, Array.getElem?_push] at hshape ⊢
    split at hshape
    · next hid =>
      cases hshape
      have hnot : id ∉ s.fills := fun hmem => by
        have := h.fills id hmem
        simp only [Drawing.size] at this
        omega
      simp [hnot]
    · exact h.filled id shape hshape

theorem Sound.addShape (h : s.Sound) (hearlier : ∀ r ∈ form.references, r < s.drawing.size) :
    (s.addShape name form position).scene.Sound := by
  cases hfound : s.shapeNames.find? name with
  | none =>
    rw [addShape_of_fresh hfound]
    exact h.withShape hfound hearlier
  | some e =>
    rw [addShape_of_taken hfound]
    exact h

theorem Sound.addColor (h : s.Sound) : (s.addColor name color position).scene.Sound := by
  cases hfound : s.colors.find? name with
  | none =>
    rw [addColor_of_fresh hfound]
    exact { h with colors := h.colors.add hfound }
  | some e =>
    rw [addColor_of_taken hfound]
    exact h

/-! ### Filling -/

theorem getElem?_setFill (d : Drawing Float) (i : Nat) :
    (d.setFill id color).shapes[i]? = d.shapes[i]?.map fun shape =>
      if i = id then { shape with fill := some color } else shape := by
  rw [Drawing.setFill, Array.getElem?_modify]
  rcases Decidable.em (i = id) with rfl | hi
  · simp only [if_true]
  · simp only [if_neg hi, if_neg (Ne.symm hi), Option.map_id']

theorem Sound.fill (h : s.Sound) (hid : id < s.drawing.size) : (s.fill id color).Sound where
  layered := by
    intro i shape hshape
    rw [Scene.fill, getElem?_setFill, Option.map_eq_some_iff] at hshape
    obtain ⟨before, hbefore, rfl⟩ := hshape
    have hearlier := h.layered i before hbefore
    split <;> exact hearlier
  names := h.names
  entries := by
    intro i
    rw [Scene.fill, getElem?_setFill, Option.map_map]
    refine (h.entries i).trans ?_
    congr 1
    funext shape
    simp only [Function.comp_apply]
    split <;> rfl
  colors := h.colors
  fills := by
    intro i hi
    rw [Scene.fill, Drawing.size, Drawing.setFill, Array.size_modify]
    rw [Scene.fill, Array.mem_push] at hi
    rcases hi with hi | rfl
    · exact h.fills i hi
    · exact hid
  filled := by
    intro i shape hshape
    rw [Scene.fill, getElem?_setFill, Option.map_eq_some_iff] at hshape
    obtain ⟨before, hbefore, rfl⟩ := hshape
    have hfilled := h.filled i before hbefore
    rw [Scene.fill, Array.mem_push]
    split
    · next hi => simp [hi]
    · next hi => simp [hi, hfilled]

end Easel.Scene
