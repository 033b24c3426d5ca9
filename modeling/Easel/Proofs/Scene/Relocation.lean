import Mathlib.Logic.Equiv.Basic
import Easel.Proofs.Drawing.Relocation
import Easel.Proofs.Image.Painter
import Easel.Proofs.Scene.Reachable

/-! Scenes that have the same shapes at other places. What a description can see of a scene is what
its names stand for, and what a picture can show of it is how its shapes are filled; neither depends
on the places of the shapes. A scene may have further shapes and colours, which change nothing as
long as nothing refers to them. -/

namespace Easel

namespace Statement

/-- The statement about the shapes at other places. -/
def relocate (place : Nat → Nat) : Statement → Statement
  | shape name position form => shape name position (form.relocate place)
  | color name position value => color name position value
  | fill target value => fill (place target) value

/-- The name of the shape that a statement declares, if it declares one. -/
def shapeNames : Statement → List String
  | shape name _ _ => [name]
  | _ => []

/-- The name of the colour that a statement declares, if it declares one. -/
def colorNames : Statement → List String
  | color name _ _ => [name]
  | _ => []

def isFill : Statement → Bool
  | fill _ _ => true
  | _ => false

variable {place : Nat → Nat} (st : Statement)

@[simp] theorem relocate_id : st.relocate id = st := by
  cases st <;> simp [relocate]

end Statement

namespace Drawing

variable {α : Type} {d : Drawing α} {name : String} {form : Form α} {color : Color}

theorem form?_push (d : Drawing α) (name : String) (form : Form α) (id : Nat) :
    (d.push name form).form? id = if id = d.size then some form else d.form? id := by
  rw [form?, form?, push, size, Array.getElem?_push]
  split <;> rfl

theorem form?_setFill (d : Drawing α) (target : Nat) (color : Color) (id : Nat) :
    (d.setFill target color).form? id = d.form? id := by
  rw [form?, form?, setFill, Array.getElem?_modify]
  split
  · rw [Option.map_map]
    rfl
  · rfl

theorem form?_size (d : Drawing α) : d.form? d.size = none := by
  rw [form?, size, Array.getElem?_size, Option.map_none]

/-- The colour of the shape at a place, if there is one and it has one. -/
def fill? (d : Drawing α) (id : Nat) : Option Color := d.shapes[id]?.bind (·.fill)

theorem fill?_of_size_le {id : Nat} (h : d.size ≤ id) : d.fill? id = none := by
  rw [fill?, Array.getElem?_eq_none h, Option.bind_none]

theorem fill?_push (d : Drawing α) (name : String) (form : Form α) (id : Nat) :
    (d.push name form).fill? id = d.fill? id := by
  rw [fill?, fill?, push, Array.getElem?_push]
  split
  · next hid => rw [hid, Array.getElem?_size, Option.bind_some, Option.bind_none]
  · rfl

theorem fill?_setFill {target : Nat} (htarget : target < d.size) (color : Color) (id : Nat) :
    (d.setFill target color).fill? id = if id = target then some color else d.fill? id := by
  rw [fill?, fill?, setFill, Array.getElem?_modify]
  rcases Decidable.em (id = target) with rfl | hne
  · rw [if_pos rfl, if_pos rfl, Array.getElem?_eq_getElem htarget, Option.map_some,
      Option.bind_some]
  · rw [if_neg (Ne.symm hne), if_neg hne]

/-- A shape that is there already is filled in the same way before and after another one comes. -/
theorem setFill_push {target : Nat} (htarget : target < d.size) (name : String) (form : Form α)
    (color : Color) :
    (d.push name form).setFill target color = (d.setFill target color).push name form := by
  have hne : target ≠ d.shapes.size := Nat.ne_of_lt htarget
  simp only [push, setFill, Drawing.mk.injEq]
  apply Array.ext_getElem?
  intro i
  rw [Array.getElem?_modify, Array.getElem?_push, Array.getElem?_push, Array.getElem?_modify,
    Array.size_modify]
  grind

end Drawing

namespace Scene

variable {s s' : Scene} {place : Nat → Nat} {xs ys : List String} {st : Statement}

/-- The scene with one more colour. -/
def withColor (s : Scene) (name : String) (value : Color) (position : Position) : Scene :=
  { s with colors := s.colors.add name value position }

/-- The scene with what a statement adds to it. -/
def adding (s : Scene) : Statement → Scene
  | .shape name position form => s.withShape name form position
  | .color name position value => s.withColor name value position
  | .fill target value => s.fill target value

/-- The names that a statement declares are new. -/
def Fresh (s : Scene) (st : Statement) : Prop :=
  (∀ name ∈ st.shapeNames, s.shape? name = none) ∧ ∀ name ∈ st.colorNames, s.color? name = none

theorem apply_eq_adding (h : s.Fresh st) : s.apply st = .ok (s.adding st) := by
  cases st with
  | shape name position form =>
    have hfresh : s.shape? name = none := h.1 name (by simp [Statement.shapeNames])
    rw [apply, declareShape, addShape_of_fresh (Option.map_eq_none_iff.mp hfresh)]
    rfl
  | color name position value =>
    have hfresh : s.color? name = none := h.2 name (by simp [Statement.colorNames])
    rw [apply, declareColor, addColor_of_fresh (Option.map_eq_none_iff.mp hfresh)]
    rfl
  | fill target value => rfl

theorem shape?_withShape (hs : s.Sound) (name : String) (form : Form Float) (position : Position)
    (other : String) :
    (s.withShape name form position).shape? other =
      if other = name then some s.drawing.size else s.shape? other :=
  hs.names.get?_add name _ position other

@[simp] theorem size_withShape (s : Scene) (name : String) (form : Form Float)
    (position : Position) : (s.withShape name form position).drawing.size = s.drawing.size + 1 :=
  Array.size_push _

@[simp] theorem size_fill (s : Scene) (target : Nat) (value : Color) :
    (s.fill target value).drawing.size = s.drawing.size :=
  Array.size_modify

theorem form?_withShape (s : Scene) (name : String) (form : Form Float) (position : Position)
    (id : Nat) :
    (s.withShape name form position).drawing.form? id =
      if id = s.drawing.size then some form else s.drawing.form? id :=
  Drawing.form?_push _ _ _ id

theorem fill?_withShape (s : Scene) (name : String) (form : Form Float) (position : Position)
    (id : Nat) :
    (s.withShape name form position).drawing.fill? id = s.drawing.fill? id :=
  Drawing.fill?_push _ _ _ id

theorem color?_withColor (hs : s.Sound) (name : String) (value : Color) (position : Position)
    (other : String) :
    (s.withColor name value position).color? other =
      if other = name then some value else s.color? other :=
  hs.colors.get?_add name value position other

theorem Sound.withColor (hs : s.Sound) {name : String} {value : Color} {position : Position}
    (hfresh : s.colors.find? name = none) : (s.withColor name value position).Sound :=
  { hs with colors := hs.colors.add hfresh }

/-- What a statement adds leaves a sound scene sound. -/
theorem Sound.adding (hs : s.Sound) (hst : s.Fresh st) (hfits : s.Fits st) :
    (s.adding st).Sound := by
  cases st with
  | shape name position form =>
    exact hs.withShape (Option.map_eq_none_iff.mp (hst.1 name List.mem_cons_self)) hfits
  | color name position value =>
    exact hs.withColor (Option.map_eq_none_iff.mp (hst.2 name List.mem_cons_self))
  | fill target value => exact hs.fill hfits

/-! ### Names -/

/-- Names stand in `s'` for what they stand for in `s`, where shapes have other places. Only `s'`
has shapes with the names `xs` and colours with the names `ys`. -/
structure Includes (place : Nat → Nat) (xs ys : List String) (s s' : Scene) : Prop where
  shape : ∀ name, name ∉ xs → s'.shape? name = (s.shape? name).map place
  noShape : ∀ name ∈ xs, s.shape? name = none
  color : ∀ name, name ∉ ys → s'.color? name = s.color? name
  noColor : ∀ name ∈ ys, s.color? name = none
  forms : s.drawing.Embeds place s'.drawing

theorem embeds_withShape (s : Scene) (name : String) (form : Form Float) (position : Position) :
    s.drawing.Embeds id (s.withShape name form position).drawing := by
  intro i other hother
  have hne : i ≠ s.drawing.size := by
    rintro rfl
    rw [Drawing.form?_size] at hother
    cases hother
  rw [id_eq, Form.relocate_id, form?_withShape, if_neg hne, hother]

/-- A statement that is carried out leaves the names as they are, and adds what it declares. -/
theorem includes_adding (hs : s.Sound) (hst : s.Fresh st) :
    s.Includes id st.shapeNames st.colorNames (s.adding st) where
  shape name hname := by
    rw [Option.map_id_fun, id_eq]
    cases st with
    | shape new position form =>
      exact (shape?_withShape hs new form position name).trans
        (if_neg fun h => hname (List.mem_singleton.mpr h))
    | color | fill => rfl
  noShape := hst.1
  color name hname := by
    cases st with
    | color new position value =>
      exact (color?_withColor hs new value position name).trans
        (if_neg fun h => hname (List.mem_singleton.mpr h))
    | shape | fill => rfl
  noColor := hst.2
  forms := by
    cases st with
    | shape name position form => exact embeds_withShape s name form position
    | color => exact fun i form hform => by rw [id_eq, Form.relocate_id]; exact hform
    | fill target value =>
      intro i form hform
      rw [id_eq, Form.relocate_id]
      exact (Drawing.form?_setFill _ _ _ _).trans hform

/-- What a statement adds to one scene it adds to the other one, at the next place. -/
theorem Includes.adding (h : s.Includes place xs ys s') (hs : s.Sound) (hs' : s'.Sound)
    (hnext : place s.drawing.size = s'.drawing.size) (hxs : ∀ name ∈ st.shapeNames, name ∉ xs)
    (hys : ∀ name ∈ st.colorNames, name ∉ ys) :
    (s.adding st).Includes place xs ys (s'.adding (st.relocate place)) := by
  cases st with
  | shape new position form =>
    have hnew : new ∉ xs := hxs new (by simp [Statement.shapeNames])
    refine { shape := fun name hname => ?_, noShape := fun name hname => ?_, color := h.color,
             noColor := h.noColor, forms := fun i other hother => ?_ }
    · rw [Scene.adding, Statement.relocate, Scene.adding, shape?_withShape hs, shape?_withShape hs',
        h.shape name hname]
      split
      · rw [Option.map_some, hnext]
      · rfl
    · have hne : name ≠ new := fun heq => hnew (heq ▸ hname)
      rw [Scene.adding, shape?_withShape hs, if_neg hne, h.noShape name hname]
    · rw [Scene.adding, form?_withShape] at hother
      rw [Statement.relocate, Scene.adding, form?_withShape]
      split at hother
      · next hi =>
        cases hother
        rw [hi, hnext, if_pos rfl]
      · have hplace := h.forms i other hother
        have hne : place i ≠ s'.drawing.size := Nat.ne_of_lt (Drawing.lt_of_form? hplace)
        rw [if_neg hne, hplace]
  | color new position value =>
    have hnew : new ∉ ys := hys new (by simp [Statement.colorNames])
    refine { shape := h.shape, noShape := h.noShape, color := fun name hname => ?_,
             noColor := fun name hname => ?_, forms := h.forms }
    · rw [Scene.adding, Statement.relocate, Scene.adding, color?_withColor hs, color?_withColor hs',
        h.color name hname]
    · have hne : name ≠ new := fun heq => hnew (heq ▸ hname)
      rw [Scene.adding, color?_withColor hs, if_neg hne, h.noColor name hname]
  | fill target value =>
    refine { h with forms := fun i form hform => ?_ }
    rw [Scene.adding, Scene.fill, Drawing.form?_setFill] at hform
    exact (Drawing.form?_setFill _ _ _ _).trans (h.forms i form hform)

/-- What is new in a scene with further names is new in the scene without them. -/
theorem Includes.fresh (h : s.Includes id xs ys s') (hst : s'.Fresh st) : s.Fresh st := by
  constructor
  · intro name hname
    rcases Decidable.em (name ∈ xs) with hmem | hmem
    · exact h.noShape name hmem
    · have hnone := hst.1 name hname
      rwa [h.shape name hmem, Option.map_id_fun] at hnone
  · intro name hname
    rcases Decidable.em (name ∈ ys) with hmem | hmem
    · exact h.noColor name hmem
    · exact (h.color name hmem).symm.trans (hst.2 name hname)

/-- What is new in a scene is new in one with further names as well, unless it is among them. -/
theorem Includes.stays_fresh (h : s.Includes place xs ys s') (hst : s.Fresh st)
    (hxs : ∀ name ∈ st.shapeNames, name ∉ xs) (hys : ∀ name ∈ st.colorNames, name ∉ ys) :
    s'.Fresh st := by
  constructor
  · intro name hname
    rw [h.shape name (hxs name hname), hst.1 name hname, Option.map_none]
  · intro name hname
    rw [h.color name (hys name hname), hst.2 name hname]

/-- A statement declares other names than those before it. -/
theorem Fresh.apart (hs : s.Sound) {other : Statement} (h : (s.adding st).Fresh other) :
    (∀ name ∈ st.shapeNames, name ∉ other.shapeNames) ∧
      ∀ name ∈ st.colorNames, name ∉ other.colorNames := by
  constructor
  · intro name hname hother
    cases st with
    | shape new position form =>
      obtain rfl := List.mem_singleton.mp hname
      have hnone := h.1 name hother
      rw [Scene.adding, shape?_withShape hs, if_pos rfl] at hnone
      cases hnone
    | color | fill => cases hname
  · intro name hname hother
    cases st with
    | color new position value =>
      obtain rfl := List.mem_singleton.mp hname
      have hnone := h.2 name hother
      rw [Scene.adding, color?_withColor hs, if_pos rfl] at hnone
      cases hnone
    | shape | fill => cases hname

/-- Only the places of the shapes that there are matter. -/
theorem Includes.congr (h : s.Includes place xs ys s') (hs : s.Sound) {place' : Nat → Nat}
    (hplace : ∀ i < s.drawing.size, place' i = place i) : s.Includes place' xs ys s' where
  shape name hname := by
    rw [h.shape name hname]
    cases hid : s.shape? name with
    | none => rfl
    | some id => rw [Option.map_some, Option.map_some, hplace id (hs.shape?_lt hid)]
  noShape := h.noShape
  color := h.color
  noColor := h.noColor
  forms i form hform := by
    have hlt := Drawing.lt_of_form? hform
    have hrelocate : form.relocate place' = form.relocate place :=
      Form.relocate_congr fun r hr => hplace r (Nat.lt_trans (hs.layered.lt hform hr) hlt)
    rw [hplace i hlt, hrelocate]
    exact h.forms i form hform

/-! ### Fills -/

/-- A scene with the shapes of another one at other places, filled in the same way and in the same
order, on the same canvas. The places behind the last shape are those behind the last shape. -/
structure Extends (place : Nat → Nat) (xs ys : List String) (s s' : Scene) : Prop extends
    Includes place xs ys s s' where
  width : s'.width = s.width
  height : s'.height = s.height
  fill : ∀ id < s.drawing.size, s'.drawing.fill? (place id) = s.drawing.fill? id
  fills : s'.fills.toList = s.fills.toList.map place
  next : ∀ k, place (s.drawing.size + k) = s'.drawing.size + k
  injective : Function.Injective place

theorem Extends.next_zero (h : s.Extends place xs ys s') :
    place s.drawing.size = s'.drawing.size :=
  h.next 0

theorem Extends.refl (s : Scene) : s.Extends id [] [] s where
  shape name _ := by rw [Option.map_id_fun, id_eq]
  noShape := nofun
  color _ _ := rfl
  noColor := nofun
  forms i form hform := by rw [id_eq, Form.relocate_id, hform]
  width := rfl
  height := rfl
  fill _ _ := rfl
  fills := by rw [List.map_id]
  next _ := rfl
  injective := Function.injective_id

theorem Extends.place_lt (h : s.Extends place xs ys s') {i : Nat} (hi : i < s.drawing.size) :
    place i < s'.drawing.size := by
  obtain ⟨form, hform⟩ := Drawing.exists_form hi
  exact Drawing.lt_of_form? (h.forms i form hform)

/-- Statements that mean the same keep a scene and one with other places in step. -/
theorem Extends.adding (h : s.Extends place xs ys s') (hs : s.Sound) (hs' : s'.Sound)
    (hst : s.Fits st) (hxs : ∀ name ∈ st.shapeNames, name ∉ xs)
    (hys : ∀ name ∈ st.colorNames, name ∉ ys) :
    (s.adding st).Extends place xs ys (s'.adding (st.relocate place)) := by
  have hincludes := h.toIncludes.adding hs hs' h.next_zero hxs hys
  cases st with
  | shape name position form =>
    refine { hincludes with
      width := h.width, height := h.height, fills := h.fills, injective := h.injective
      fill := fun i hi => ?_, next := fun k => ?_ }
    · rw [Scene.adding, size_withShape] at hi
      rw [Scene.adding, Statement.relocate, Scene.adding, fill?_withShape, fill?_withShape]
      rcases Nat.lt_succ_iff_lt_or_eq.mp hi with hlt | rfl
      · exact h.fill i hlt
      · rw [h.next_zero, Drawing.fill?_of_size_le (Nat.le_refl _),
          Drawing.fill?_of_size_le (Nat.le_refl _)]
    · rw [Scene.adding, Statement.relocate, Scene.adding, size_withShape, size_withShape,
        Nat.add_assoc, h.next, Nat.add_assoc]
  | color name position value =>
    exact { hincludes with
      width := h.width, height := h.height, fills := h.fills, injective := h.injective
      fill := h.fill, next := h.next }
  | fill target value =>
    have htarget : target < s.drawing.size := hst
    refine { hincludes with
      width := h.width, height := h.height, injective := h.injective
      fill := fun i hi => ?_, fills := ?_, next := fun k => ?_ }
    · rw [Scene.adding, size_fill] at hi
      rw [Scene.adding, Statement.relocate, Scene.adding, Scene.fill, Scene.fill,
        Drawing.fill?_setFill htarget, Drawing.fill?_setFill (h.place_lt htarget), h.fill i hi]
      simp only [h.injective.eq_iff]
    · rw [Scene.adding, Statement.relocate, Scene.adding, Scene.fill, Scene.fill, Array.toList_push,
        Array.toList_push, h.fills, List.map_append, List.map_singleton]
    · rw [Scene.adding, Statement.relocate, Scene.adding, size_fill, size_fill, h.next]

theorem Sound.map_fills (hs : s.Sound) (hplace : ∀ i < s.drawing.size, place i = i) :
    s.fills.toList.map place = s.fills.toList := by
  have hid : s.fills.toList.map place = s.fills.toList.map id :=
    List.map_congr_left fun i hi => hplace i (hs.fills i (Array.mem_toList_iff.mp hi))
  rw [hid, List.map_id]

/-- A declaration adds a shape behind the others, or a colour. -/
theorem exists_extends_adding (hs : s.Sound) (hst : s.Fresh st) (hdeclares : st.isFill = false) :
    ∃ place, s.Extends place st.shapeNames st.colorNames (s.adding st) := by
  have hincludes := includes_adding hs hst
  cases st with
  | shape name position form =>
    -- the shapes that are declared later move up by one place
    let place (i : Nat) : Nat := if i < s.drawing.size then i else i + 1
    have hfixed : ∀ i < s.drawing.size, place i = i := fun i hi => if_pos hi
    have hmoved : ∀ i, ¬i < s.drawing.size → place i = i + 1 := fun i hi => if_neg hi
    refine ⟨place, { hincludes.congr hs hfixed with
      width := rfl, height := rfl, fill := fun i hi => ?_, fills := ?_, next := fun k => ?_
      injective := fun i j hij => ?_ }⟩
    · rw [hfixed i hi, Scene.adding, fill?_withShape]
    · exact (hs.map_fills hfixed).symm
    · rw [hmoved _ (by omega), Scene.adding, size_withShape]
      omega
    · simp only [place] at hij
      split at hij <;> split at hij <;> omega
  | color name position value => exact ⟨id, { Extends.refl s with toIncludes := hincludes }⟩
  | fill target value => cases hdeclares

/-! ### The order of statements -/

theorem fill_withShape {target : Nat} (htarget : target < s.drawing.size) (name : String)
    (form : Form Float) (position : Position) (value : Color) :
    (s.withShape name form position).fill target value =
      (s.fill target value).withShape name form position := by
  have hsize : (s.drawing.setFill target value).size = s.drawing.size := Array.size_modify
  rw [Scene.fill, Scene.fill, withShape, withShape]
  simp only [hsize, Drawing.setFill_push htarget]

/-- Statements of different kinds leave the same scene in both orders. -/
theorem adding_comm {first second : Statement} (hfirst : s.Fits first) (hsecond : s.Fits second)
    (hshapes : first.shapeNames = [] ∨ second.shapeNames = [])
    (hcolors : first.colorNames = [] ∨ second.colorNames = [])
    (hfills : first.isFill = false ∨ second.isFill = false) :
    (s.adding first).adding second = (s.adding second).adding first := by
  cases first with
  | shape a p fa =>
    cases second with
    | shape => simp [Statement.shapeNames] at hshapes
    | color => rfl
    | fill target value => exact fill_withShape hsecond a fa p value
  | color a p va =>
    cases second with
    | shape => rfl
    | color => simp [Statement.colorNames] at hcolors
    | fill => rfl
  | fill target value =>
    cases second with
    | shape b q fb => exact (fill_withShape hfirst b fb q value).symm
    | color => rfl
    | fill => simp [Statement.isFill] at hfills

theorem swap_next_of_lt {i n : Nat} (hi : i < n) : Equiv.swap n (n + 1) i = i :=
  Equiv.swap_apply_of_ne_of_ne (by omega) (by omega)

theorem embeds_swap_shapes (hs : s.Sound) (a b : String) {fa fb : Form Float} (p q : Position)
    (ha : ∀ r ∈ fa.references, r < s.drawing.size) (hb : ∀ r ∈ fb.references, r < s.drawing.size) :
    ((s.withShape a fa p).withShape b fb q).drawing.Embeds
      (Equiv.swap s.drawing.size (s.drawing.size + 1))
      ((s.withShape b fb q).withShape a fa p).drawing := by
  have hrelocate : ∀ form : Form Float, (∀ r ∈ form.references, r < s.drawing.size) →
      form.relocate (Equiv.swap s.drawing.size (s.drawing.size + 1)) = form :=
    fun form hform =>
      (Form.relocate_congr fun r hr => swap_next_of_lt (hform r hr)).trans Form.relocate_id
  intro i form hform
  rw [form?_withShape, form?_withShape, size_withShape] at hform
  rw [form?_withShape, form?_withShape, size_withShape]
  split at hform
  · next hi =>
    cases hform
    rw [hi, Equiv.swap_apply_right, if_neg (by omega), if_pos rfl, hrelocate _ hb]
  · split at hform
    · next hi =>
      cases hform
      rw [hi, Equiv.swap_apply_left, if_pos rfl, hrelocate _ ha]
    · have hlt := Drawing.lt_of_form? hform
      have hearlier : ∀ r ∈ form.references, r < s.drawing.size :=
        fun r hr => Nat.lt_trans (hs.layered.lt hform hr) hlt
      rw [swap_next_of_lt hlt, if_neg (by omega), if_neg (by omega), hrelocate form hearlier, hform]

/-- Two shapes that are declared in the other order have changed places. -/
theorem extends_swap_shapes (hs : s.Sound) {a b : String} {fa fb : Form Float} {p q : Position}
    (ha : ∀ r ∈ fa.references, r < s.drawing.size) (hb : ∀ r ∈ fb.references, r < s.drawing.size)
    (hab : a ≠ b) (ha' : s.shape? a = none) (hb' : s.shape? b = none) :
    ((s.withShape a fa p).withShape b fb q).Extends
      (Equiv.swap s.drawing.size (s.drawing.size + 1)) [] []
      ((s.withShape b fb q).withShape a fa p) := by
  have hsa : (s.withShape a fa p).Sound := hs.withShape (Option.map_eq_none_iff.mp ha') ha
  have hsb : (s.withShape b fb q).Sound := hs.withShape (Option.map_eq_none_iff.mp hb') hb
  refine {
    shape := fun name _ => ?_, noShape := nofun, color := fun _ _ => rfl, noColor := nofun
    forms := embeds_swap_shapes hs a b p q ha hb, width := rfl, height := rfl
    fill := fun i hi => ?_, fills := (hs.map_fills fun _ => swap_next_of_lt).symm
    next := fun k => ?_, injective := Equiv.injective _ }
  · rw [shape?_withShape hsb, shape?_withShape hsa, shape?_withShape hs, shape?_withShape hs,
      size_withShape, size_withShape]
    rcases Decidable.em (name = a) with rfl | hna
    · rw [if_pos rfl, if_neg hab, if_pos rfl, Option.map_some, Equiv.swap_apply_left]
    · rw [if_neg hna, if_neg hna]
      rcases Decidable.em (name = b) with rfl | hnb
      · rw [if_pos rfl, if_pos rfl, Option.map_some, Equiv.swap_apply_right]
      · rw [if_neg hnb, if_neg hnb]
        cases hid : s.shape? name with
        | none => rfl
        | some id => rw [Option.map_some, swap_next_of_lt (hs.shape?_lt hid)]
  · rw [fill?_withShape, fill?_withShape, fill?_withShape, fill?_withShape]
    rcases Decidable.em (i < s.drawing.size) with hlt | hle
    · rw [swap_next_of_lt hlt]
    · have hle' : s.drawing.size ≤ Equiv.swap s.drawing.size (s.drawing.size + 1) i := by
        rw [Equiv.swap_apply_def]
        split
        · omega
        · split <;> omega
      rw [Drawing.fill?_of_size_le (Nat.le_of_not_lt hle), Drawing.fill?_of_size_le hle']
  · rw [size_withShape, size_withShape, size_withShape, size_withShape]
    exact Equiv.swap_apply_of_ne_of_ne (by omega) (by omega)

theorem extends_swap_colors (hs : s.Sound) {a b : String} {va vb : Color} {p q : Position}
    (hab : a ≠ b) (ha : s.color? a = none) (hb : s.color? b = none) :
    ((s.withColor a va p).withColor b vb q).Extends id [] []
      ((s.withColor b vb q).withColor a va p) := by
  have hsa : (s.withColor a va p).Sound := hs.withColor (Option.map_eq_none_iff.mp ha)
  have hsb : (s.withColor b vb q).Sound := hs.withColor (Option.map_eq_none_iff.mp hb)
  refine { Extends.refl s with color := fun name _ => ?_, noColor := nofun }
  rw [color?_withColor hsb, color?_withColor hsa, color?_withColor hs, color?_withColor hs]
  rcases Decidable.em (name = a) with rfl | hna
  · rw [if_pos rfl, if_neg hab, if_pos rfl]
  · rw [if_neg hna, if_neg hna]

/-- What two statements leave in one order they leave in the other order, but for the places of
shapes, unless both of them fill a shape. -/
theorem exists_extends_exchange (hs : s.Sound) {first second : Statement} (hfirst : s.Fits first)
    (hsecond : s.Fits second) (hfresh : s.Fresh first) (hfresh' : s.Fresh second)
    (hshapes : ∀ name ∈ first.shapeNames, name ∉ second.shapeNames)
    (hcolors : ∀ name ∈ first.colorNames, name ∉ second.colorNames)
    (hfills : ¬(first.isFill ∧ second.isFill)) :
    ∃ place, ((s.adding first).adding second).Extends place [] []
      ((s.adding second).adding first) := by
  cases first with
  | shape a p fa =>
    cases second with
    | shape b q fb =>
      have hab : a ≠ b := fun h => hshapes a (by simp [Statement.shapeNames])
        (by simp [Statement.shapeNames, h])
      exact ⟨_, extends_swap_shapes hs hfirst hsecond hab (hfresh.1 a List.mem_cons_self)
        (hfresh'.1 b List.mem_cons_self)⟩
    | color | fill =>
      rw [adding_comm hfirst hsecond (.inr rfl) (.inl rfl) (.inl rfl)]
      exact ⟨id, .refl _⟩
  | color a p va =>
    cases second with
    | color b q vb =>
      have hab : a ≠ b := fun h => hcolors a (by simp [Statement.colorNames])
        (by simp [Statement.colorNames, h])
      exact ⟨id, extends_swap_colors hs hab (hfresh.2 a List.mem_cons_self)
        (hfresh'.2 b List.mem_cons_self)⟩
    | shape | fill =>
      rw [adding_comm hfirst hsecond (.inl rfl) (.inr rfl) (.inl rfl)]
      exact ⟨id, .refl _⟩
  | fill target value =>
    cases second with
    | fill => simp [Statement.isFill] at hfills
    | shape | color =>
      rw [adding_comm hfirst hsecond (.inl rfl) (.inl rfl) (.inr rfl)]
      exact ⟨id, .refl _⟩

/-! ### Pictures -/

theorem Extends.contains_eq (h : s.Extends place xs ys s') (hs : s.Sound) (hs' : s'.Sound) {i : Nat}
    (hi : i < s.drawing.size) : s'.drawing.contains (place i) = s.drawing.contains i :=
  funext (h.forms.contains_eq hs.layered hs'.layered hi)

theorem Extends.span?_eq (h : s.Extends place xs ys s') (hs : s.Sound) (hs' : s'.Sound) {i : Nat}
    (hi : i < s.drawing.size) : s'.span? (place i) = s.span? i := by
  rw [span?, span?, Drawing.pixelSpan?, Drawing.pixelSpan?, h.width, h.height,
    h.forms.bounds_eq hs.layered hs'.layered hi]

/-- A shape takes its turn in the same way, whatever its place. -/
theorem Extends.turn_eq (h : s.Extends place xs ys s') (hs : s.Sound) (hs' : s'.Sound) {i : Nat}
    (hi : i < s.drawing.size) (c : Canvas) :
    Painting.turn s' s'.span? c (place i) = Painting.turn s s.span? c i := by
  have hfill : s'.drawing.shapes[place i]?.bind (·.fill) = s.drawing.shapes[i]?.bind (·.fill) :=
    h.fill i hi
  have hvisit : Painting.visit s'.drawing (place i) = Painting.visit s.drawing i := by
    funext color c cell
    rw [Painting.visit, Painting.visit, h.contains_eq hs hs' hi]
  rw [Painting.turn, Painting.turn, h.span?_eq hs hs' hi, hfill, hvisit]

theorem Extends.turn?_eq (o : Overflow) (h : s.Extends place xs ys s') (hs : s.Sound)
    (hs' : s'.Sound) {i : Nat} (hi : i < s.drawing.size) (c : Canvas) :
    Painting.turn? o s' s'.span? c (place i) = Painting.turn? o s s.span? c i := by
  obtain ⟨shape, hshape⟩ : ∃ shape, s.drawing.shapes[i]? = some shape :=
    ⟨_, Array.getElem?_eq_getElem hi⟩
  obtain ⟨shape', hshape'⟩ : ∃ shape', s'.drawing.shapes[place i]? = some shape' :=
    ⟨_, Array.getElem?_eq_getElem (h.place_lt hi)⟩
  have hfill := h.fill i hi
  rw [Drawing.fill?, Drawing.fill?, hshape, hshape', Option.bind_some, Option.bind_some] at hfill
  have hpaint : Painting.paint? o s'.drawing (place i) = Painting.paint? o s.drawing i := by
    have hvisit : Painting.visit? o s'.drawing (place i) = Painting.visit? o s.drawing i := by
      funext color c cell
      rw [Painting.visit?, Painting.visit?, h.contains_eq hs hs' hi]
    funext color span c
    rw [Painting.paint?, Painting.paint?, hvisit]
  rw [Painting.turn?, Painting.turn?, h.span?_eq hs hs' hi, hshape, hshape']
  simp only [Option.bind_eq_bind, Option.bind_some, hfill, hpaint]

theorem Extends.run_eq (h : s.Extends place xs ys s') (hs : s.Sound) (hs' : s'.Sound)
    {turns : List Nat} (hturns : ∀ id ∈ turns, id < s.drawing.size) (c : Canvas) :
    Painting.run s' s'.span? c (turns.map place) = Painting.run s s.span? c turns := by
  rw [Painting.run, Painting.run, List.foldl_map]
  exact List.foldl_ext _ _ c fun c id hid => h.turn_eq hs hs' (hturns id hid) c

theorem Extends.run?_eq (o : Overflow) (h : s.Extends place xs ys s') (hs : s.Sound)
    (hs' : s'.Sound) {turns : List Nat} (hturns : ∀ id ∈ turns, id < s.drawing.size) (c : Canvas) :
    Painting.run? o s' s'.span? c (turns.map place) = Painting.run? o s s.span? c turns := by
  rw [Painting.run?, Painting.run?, List.foldlM_map]
  induction turns generalizing c with
  | nil => rw [List.foldlM_nil, List.foldlM_nil]
  | cons id rest ih =>
    have hrest := ih fun other hother => hturns other (List.mem_cons_of_mem _ hother)
    rw [List.foldlM_cons, List.foldlM_cons, h.turn?_eq o hs hs' (hturns id List.mem_cons_self)]
    exact Option.bind_congr fun c _ => hrest c

/-- The picture of a scene shows neither the places of its shapes nor shapes and colours that are
not used. -/
theorem Extends.samePictures (h : s.Extends place xs ys s') (hs : s.Sound) (hs' : s'.Sound) :
    s'.SamePictures s := by
  have hturns (order : Precedence) : order.turns s'.fills = (order.turns s.fills).map place := by
    cases order with
    | first => exact h.fills
    | last => simp only [Precedence.turns, h.fills, List.map_reverse]
  have hmem (order : Precedence) : ∀ id ∈ order.turns s.fills, id < s.drawing.size :=
    fun id hid => hs.fills id (Precedence.mem_turns.mp hid)
  constructor
  · intro order background
    rw [picture, picture, canvas, canvas, h.width, h.height, hturns, h.run_eq hs hs' (hmem order)]
  · intro o order background
    rw [picture?, picture?, canvas?, canvas?, h.width, h.height, hturns]
    simp only [h.run?_eq o hs hs' (hmem order)]

end Scene

end Easel
