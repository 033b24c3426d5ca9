import Easel.Plane.Point

/-! Boxes with sides along the axes, and the pixels whose centres they cover. -/

namespace Easel

/-- A box, given by its lower left and its upper right corner. -/
structure Box (α : Type) where
  lowerLeft : Point α
  upperRight : Point α
  deriving DecidableEq, Repr

/-- The indices from `first` to `last`. -/
structure Span where
  first : Nat
  last : Nat
  deriving DecidableEq, Repr

/-- The indices of a span in increasing order. -/
def Span.indices (s : Span) : List Nat := List.range' s.first (s.last + 1 - s.first)

/-- A rectangle of pixels. -/
structure PixelSpan where
  columns : Span
  rows : Span
  deriving DecidableEq, Repr

/-- The pixels of a rectangle as columns and rows, row by row. -/
def PixelSpan.cells (s : PixelSpan) : List (Nat × Nat) :=
  s.rows.indices.flatMap fun y => s.columns.indices.map fun x => (x, y)

namespace Box

variable {α : Type} [Scalar α]

def single (p : Point α) : Box α := ⟨p, p⟩

def union (b c : Box α) : Box α :=
  ⟨⟨Scalar.min b.lowerLeft.x c.lowerLeft.x, Scalar.min b.lowerLeft.y c.lowerLeft.y⟩,
    ⟨Scalar.max b.upperRight.x c.upperRight.x, Scalar.max b.upperRight.y c.upperRight.y⟩⟩

def around (p : Point α) (more : List (Point α)) : Box α :=
  more.foldl (fun b q => b.union (single q)) (single p)

/-- The least box around some points, if there are any. -/
def ofPoints? : List (Point α) → Option (Box α)
  | [] => none
  | p :: more => some (around p more)

def shift (b : Box α) (offset : Point α) : Box α :=
  ⟨b.lowerLeft.shift offset, b.upperRight.shift offset⟩

def upperLeft (b : Box α) : Point α := ⟨b.lowerLeft.x, b.upperRight.y⟩

def lowerRight (b : Box α) : Point α := ⟨b.upperRight.x, b.lowerLeft.y⟩

/-- The four corners: upper left, lower right, lower left, upper right. -/
def corners (b : Box α) : List (Point α) := [b.upperLeft, b.lowerRight, b.lowerLeft, b.upperRight]

/-- The least box around the box after a turn of its corners around a pivot. -/
def rotate (b : Box α) (pivot : Point α) (degrees : α) : Box α :=
  let turn := fun p : Point α => p.rotate pivot degrees
  around (turn b.upperLeft) [turn b.lowerRight, turn b.lowerLeft, turn b.upperRight]

/-- How far a bound may lie past the centre of a pixel that still counts as covered. Corners that
are turned miss their place by a rounding error. -/
def slack : α := Scalar.nat 1 / Scalar.nat 1000000000

/-- The indices below `length` of the unit cells whose middle lies between `low` and `high`. -/
def axisSpan? (low high : α) (length : Nat) : Option Span :=
  if length = 0 ∨ !Scalar.isFinite low ∨ !Scalar.isFinite high then none
  else
    let first := Scalar.max (Scalar.ceil (low - Scalar.half - slack)) Scalar.zero
    let last := Scalar.min (Scalar.floor (high - Scalar.half + slack)) (Scalar.nat (length - 1))
    if Scalar.lt last first then none else some ⟨Scalar.toIndex first, Scalar.toIndex last⟩

/-- The pixels of a canvas whose centres the box covers, if there are any. -/
def pixelSpan? (b : Box α) (width height : Nat) : Option PixelSpan := do
  let columns ← axisSpan? b.lowerLeft.x b.upperRight.x width
  let rows ← axisSpan? b.lowerLeft.y b.upperRight.y height
  return ⟨columns, rows⟩

end Box

def Box.text (b : Box Float) : String :=
  "[" ++ b.lowerLeft.text ++ " .. " ++ b.upperRight.text ++ "]"

end Easel
