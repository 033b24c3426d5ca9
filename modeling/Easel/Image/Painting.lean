import Easel.Image.Basic
import Easel.Scene.Basic

/-! Painting a scene. Each filled shape is sampled at the centres of the pixels that its box
covers, and colours those that it contains and that no shape before it has coloured. A machine
stops where there is no memory for the canvas, and where there is no shape or no mark in the place
where it looks for one. -/

namespace Easel

/-- Which fill is on top where filled shapes overlap. -/
inductive Precedence where
  | first
  | last
  deriving DecidableEq, Repr

namespace Precedence

/-- The fills of a scene from the topmost one down. -/
def turns (order : Precedence) (fills : Array Nat) : List Nat :=
  match order with
  | first => fills.toList
  | last => fills.toList.reverse

end Precedence

/-- A canvas that is being painted: the image so far, and a mark for each of its pixels that says
whether a shape has coloured it. -/
structure Canvas where
  image : Image
  painted : Array Bool
  deriving DecidableEq, Repr

namespace Canvas

/-- A canvas without paint, if there is memory for its pixels and for a byte for each of their
marks. -/
def blank? (o : Overflow) (width height : Nat) (background : Color) : Option Canvas := do
  let image ← Image.filled? o width height background
  let count ← o.count? (width * height : Nat)
  if count ≤ Word.maxBytes then some ⟨image, Array.replicate count false⟩ else none

/-- Colours a pixel, whose mark has the number that was counted for it. -/
def set? (o : Overflow) (c : Canvas) (dot : Dot) (number : Nat) : Option Canvas :=
  match c with
  | ⟨image, painted⟩ => do
    let image ← image.set? o dot
    some ⟨image, painted.setIfInBounds number true⟩

def paintedCount (c : Canvas) : Nat := c.painted.count true

end Canvas

namespace Painting

/-- Colours a pixel if it is not painted yet and the shape contains its centre. -/
def visit? (o : Overflow) (d : Drawing Float) (id : Nat) (color : Color) (c : Canvas)
    (cell : Nat × Nat) : Option Canvas := do
  let number ← o.count? (c.image.index cell.1 cell.2 : Nat)
  match c.painted[number]? with
  | none => none
  | some true => some c
  | some false =>
    if d.contains id (Point.pixelCenter cell.1 cell.2) then
      c.set? o ⟨cell.1, cell.2, color⟩ number
    else some c

def paint? (o : Overflow) (d : Drawing Float) (id : Nat) (color : Color) (span : PixelSpan)
    (c : Canvas) : Option Canvas :=
  span.cells.foldlM (visit? o d id color) c

/-- Gives a shape its turn on the pixels that `span?` finds for it. Only shapes with a colour take
their turn. -/
def turn? (o : Overflow) (s : Scene) (span? : Nat → Option PixelSpan) (c : Canvas) (id : Nat) :
    Option Canvas := do
  let shape ← s.drawing.shapes[id]?
  match shape.fill, span? id with
  | some color, some span => paint? o s.drawing id color span c
  | _, _ => some c

def run? (o : Overflow) (s : Scene) (span? : Nat → Option PixelSpan) (c : Canvas)
    (turns : List Nat) : Option Canvas :=
  turns.foldlM (turn? o s span?) c

end Painting

namespace Scene

def canvas? (o : Overflow) (s : Scene) (background : Color) : Option Canvas :=
  Canvas.blank? o s.width s.height background

/-- The pixels of the canvas whose centres lie in the box around the shape at a place. -/
def span? (s : Scene) (id : Nat) : Option PixelSpan := s.drawing.pixelSpan? id s.width s.height

/-- The picture of a scene, unless the machine stops on the way. Pixels that no shape has coloured
have the colour of the background. -/
def picture? (o : Overflow) (s : Scene) (order : Precedence) (background : Color) : Option Image :=
  do
  let canvas ← s.canvas? o background
  return (← Painting.run? o s s.span? canvas (order.turns s.fills)).image

end Scene

namespace Painting

/-- What the journal says about the turn of a shape: how many pixels it painted, or that it is off
the canvas. -/
def turnNote? (s : Scene) (id : Nat) (before after : Canvas) : Option String :=
  match s.drawing.shapes[id]? with
  | none => none
  | some shape =>
    if shape.fill.isNone then none
    else
      match s.span? id with
      | none => some s!"'{shape.name}' is off canvas ({(s.drawing.bounds id).text})"
      | some _ => some s!"'{shape.name}' painted {after.paintedCount - before.paintedCount} pixels"

/-- What the journal says about the turns of some shapes, as far as they come. -/
def notes (o : Overflow) (s : Scene) (c : Canvas) : List Nat → List String
  | [] => []
  | id :: rest =>
    match turn? o s s.span? c id with
    | none => []
    | some after => (turnNote? s id c after).toList ++ notes o s after rest

end Painting

def Scene.paintingNotes (o : Overflow) (s : Scene) (order : Precedence) (background : Color) :
    List String :=
  match s.canvas? o background with
  | none => []
  | some canvas => Painting.notes o s canvas (order.turns s.fills)

end Easel
