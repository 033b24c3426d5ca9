import Easel.Scene.Basic
import Easel.Text.Tree

/-! The outline of a scene: a tree of its shapes, with the shapes they are made from below them,
its colours and its fills. -/

namespace Easel

/-- A shape on one line: its name, its form, and its colour if it has one. -/
def Shape.line (shape : Shape Float) : String :=
  let fill :=
    match shape.fill with
    | some color => s!" [fill #{color.hex}]"
    | none => ""
  s!"{shape.name} = {shape.form.text}{fill}"

/-- The tree of a shape. It repeats the trees of the shapes that the shape is made from. -/
def Rule.outline : Rule Float Unit Tree where
  answer shape _ ask :=
    return .node shape.line (← shape.form.references.mapM fun r => ask r ())

def Drawing.outline (d : Drawing Float) (id : Nat) : Tree :=
  d.consult .outline (.node "" []) id ()

def Scene.outline (s : Scene) : Tree :=
  let color (entry : Declaration Color) : Tree := .node s!"{entry.name} = #{entry.value.hex}" []
  .node s!"scene {s.width}x{s.height}" [
    .node "shapes" ((List.range s.drawing.size).map s.drawing.outline),
    .node "colors" (s.colors.entries.toList.map color),
    .node "fills" (s.fills.toList.map fun id => .node (s.drawing.nameOf id) [])]

end Easel
