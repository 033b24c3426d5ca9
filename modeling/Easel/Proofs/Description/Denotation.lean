import Easel.Proofs.Description.Grammar
import Easel.Proofs.Scene.Reachable

/-! What a description denotes. The statements that it consists of denote a scene all at once: their
shapes and colours in the order of their declaration, and the shapes to fill in the order of the
statements that fill them. -/

namespace Easel

namespace Statement

/-- The shape that a statement declares. -/
def shape? : Statement → Option (Declaration (Form Float))
  | .shape name position form => some ⟨name, form, position⟩
  | _ => none

/-- The colour that a statement declares. -/
def color? : Statement → Option (Declaration Color)
  | .color name position value => some ⟨name, value, position⟩
  | _ => none

/-- The shape that a statement fills. -/
def target? : Statement → Option Nat
  | .fill target _ => some target
  | _ => none

/-- The colour with which a statement fills the shape at a place. -/
def filling? (id : Nat) : Statement → Option Color
  | .fill target value => if target = id then some value else none
  | _ => none

end Statement

/-- The table of some declarations, in order. Its index starts with the last of them. -/
def Declarations.ofList {β : Type} (ds : List (Declaration β)) : Declarations β :=
  ⟨ds.toArray, (ds.mapIdx fun i d => (d.name, i)).reverse⟩

namespace Scene

/-- The scene that statements denote. A shape has the colour of the last statement that fills it. -/
def ofStatements (width height : Nat) (sts : List Statement) : Scene where
  width := width
  height := height
  drawing := ⟨((sts.filterMap Statement.shape?).mapIdx fun id d =>
    ⟨d.name, d.value, sts.reverse.findSome? (Statement.filling? id)⟩).toArray⟩
  shapeNames := .ofList <|
    (sts.filterMap Statement.shape?).mapIdx fun id d => ⟨d.name, id, d.position⟩
  colors := .ofList (sts.filterMap Statement.color?)
  fills := (sts.filterMap Statement.target?).toArray

variable {width height : Nat} {sts : List Statement}

theorem ofList_concat {β : Type} (ds : List (Declaration β)) (d : Declaration β) :
    Declarations.ofList (ds ++ [d]) = (Declarations.ofList ds).add d.name d.value d.position := by
  simp [Declarations.ofList, Declarations.add, Declarations.size, List.mapIdx_concat]

theorem filterMap_concat {β γ : Type} (f : β → Option γ) (bs : List β) (b : β) :
    (bs ++ [b]).filterMap f = bs.filterMap f ++ (f b).toList := by
  rw [List.filterMap_append]
  cases h : f b <;> simp [h]

theorem findSome?_concat {β γ : Type} (f : β → Option γ) (bs : List β) (b : β) :
    (bs ++ [b]).reverse.findSome? f = (f b).or (bs.reverse.findSome? f) := by
  rw [List.reverse_append, List.reverse_singleton, List.singleton_append, List.findSome?_cons]
  cases f b <;> rfl

/-- What one more statement adds to each part of the scene. -/
theorem ofStatements_concat (st : Statement) :
    ofStatements width height (sts ++ [st]) =
      { width := width
        height := height
        drawing := ⟨((sts.filterMap Statement.shape? ++ st.shape?.toList).mapIdx fun id d =>
          ⟨d.name, d.value,
            (st.filling? id).or (sts.reverse.findSome? (Statement.filling? id))⟩).toArray⟩
        shapeNames := .ofList ((sts.filterMap Statement.shape? ++ st.shape?.toList).mapIdx
          fun id d => ⟨d.name, id, d.position⟩)
        colors := .ofList (sts.filterMap Statement.color? ++ st.color?.toList)
        fills := (sts.filterMap Statement.target? ++ st.target?.toList).toArray } := by
  simp only [ofStatements, filterMap_concat, findSome?_concat]

theorem size_ofStatements :
    (ofStatements width height sts).drawing.size = (sts.filterMap Statement.shape?).length := by
  simp [ofStatements, Drawing.size]

/-- A shape that is not among those to fill has no colour. -/
theorem findSome?_filling?_eq_none {id : Nat} (h : id ∉ (ofStatements width height sts).fills) :
    sts.reverse.findSome? (Statement.filling? id) = none := by
  rw [List.findSome?_eq_none_iff]
  intro st hst
  cases st with
  | shape | color => rfl
  | fill target value =>
    have hne : target ≠ id := by
      rintro rfl
      apply h
      simp only [ofStatements, List.mem_toArray, List.mem_filterMap]
      exact ⟨_, List.mem_reverse.mp hst, rfl⟩
    rw [Statement.filling?, if_neg hne]

theorem ofStatements_shape {name : String} {position : Position} {form : Form Float}
    (h : (ofStatements width height sts).Sound) :
    ofStatements width height (sts ++ [.shape name position form]) =
      (ofStatements width height sts).withShape name form position := by
  have hcolor := findSome?_filling?_eq_none fun hmem => Nat.lt_irrefl _ (h.fills _ hmem)
  rw [size_ofStatements] at hcolor
  rw [ofStatements_concat]
  simp [ofStatements, withShape, Statement.shape?, Statement.color?, Statement.target?,
    Statement.filling?, Drawing.push, Drawing.size, List.mapIdx_concat, ofList_concat, hcolor]

theorem ofStatements_color {name : String} {position : Position} {value : Color} :
    ofStatements width height (sts ++ [.color name position value]) =
      { ofStatements width height sts with
        colors := (ofStatements width height sts).colors.add name value position } := by
  rw [ofStatements_concat]
  simp [ofStatements, Statement.shape?, Statement.color?, Statement.target?, Statement.filling?,
    ofList_concat]

theorem ofStatements_fill {target : Nat} {value : Color} :
    ofStatements width height (sts ++ [.fill target value]) =
      (ofStatements width height sts).fill target value := by
  rw [ofStatements_concat]
  simp [ofStatements, Statement.shape?, Statement.color?, Statement.target?, Statement.filling?,
    Scene.fill, Drawing.setFill]
  apply List.ext_getElem?
  intro id
  rw [List.getElem?_modify, List.getElem?_mapIdx, List.getElem?_mapIdx]
  rcases Decidable.em (target = id) with rfl | hne
  · simp [Function.comp_def]
  · simp [hne]

end Scene

namespace Description

/-- Statements, each of which is read in the scene that the ones before it denote. -/
inductive AreStatements (l : Limits) (width height : Nat) :
    List Statement → List Token → List Statement → Prop
  | none {before : List Statement} : AreStatements l width height before [] []
  | more {before sts : List Statement} {st : Statement} {ts us : List Token}
      (hst : IsStatement l (.ofStatements width height before) ts st us)
      (hsts : AreStatements l width height (before ++ [st]) us sts) :
      AreStatements l width height before ts (st :: sts)

variable {l : Limits} {width height : Nat} {before : List Statement} {ts us : List Token}

/-- A statement that is carried out after others adds what it adds to their denotation. -/
theorem IsStatement.apply_eq {st : Statement}
    (h : IsStatement l (.ofStatements width height before) ts st us)
    (hs : (Scene.ofStatements width height before).Sound) :
    (Scene.ofStatements width height before).apply st =
      .ok (.ofStatements width height (before ++ [st])) := by
  cases h with
  | shape _ _ _ hfresh _ _ =>
    have hnone := Option.map_eq_none_iff.mp hfresh
    rw [Scene.apply, Scene.declareShape, Scene.addShape_of_fresh hnone, Scene.ofStatements_shape hs]
    rfl
  | color _ _ _ hfresh _ =>
    have hnone := Option.map_eq_none_iff.mp hfresh
    rw [Scene.apply, Scene.declareColor, Scene.addColor_of_fresh hnone, Scene.ofStatements_color]
    rfl
  | fill _ _ _ _ => rw [Scene.apply, Scene.ofStatements_fill]

/-- Tokens describe the scene that their canvas and their statements denote. -/
inductive Describes (l : Limits) : List Token → Scene → Prop
  | scene {ts us : List Token} {width height : Nat} {sts : List Statement}
      (hcanvas : IsCanvas (.blank 0 0) ts (width, height) us)
      (hsts : AreStatements l width height [] us sts) :
      Describes l ts (.ofStatements width height sts)

end Description

end Easel
