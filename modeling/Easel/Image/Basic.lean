import Easel.Color
import Easel.Number.Word

/-! Images: the colours of a grid of pixels. A machine counts the pixels and finds their places with
words of 64 bits. It stops where there is no memory for the pixels, and where there is no pixel in
the place that it has counted. -/

namespace Easel

/-- An image. The pixels are listed row by row, and the first row is at the bottom. -/
structure Image where
  width : Nat
  height : Nat
  pixels : Array Color
  deriving DecidableEq, Repr

/-- A colour for a pixel. -/
structure Dot where
  x : Nat
  y : Nat
  color : Color

namespace Image

/-- An image of one colour, if there is memory for the three bytes of each pixel. -/
def filled? (o : Overflow) (width height : Nat) (background : Color) : Option Image := do
  let count ← o.count? (width * height : Nat)
  if 3 * count ≤ Word.maxBytes then some ⟨width, height, Array.replicate count background⟩ else none

def index (image : Image) (x y : Nat) : Nat := y * image.width + x

/-- The colour of a pixel, if it is in the image. -/
def get? (image : Image) (x y : Nat) : Option Color :=
  if x < image.width ∧ y < image.height then image.pixels[image.index x y]? else none

/-- Changes the colour of a pixel. Nothing happens outside the image. -/
def set? (o : Overflow) (image : Image) (dot : Dot) : Option Image :=
  if dot.x < image.width ∧ dot.y < image.height then do
    let index ← o.count? (image.index dot.x dot.y : Nat)
    if index < image.pixels.size then
      some { image with pixels := image.pixels.setIfInBounds index dot.color }
    else none
  else some image

/-- The number of rows. An image without columns has none. -/
def rowCount (image : Image) : Nat :=
  if image.width = 0 then 0 else (image.pixels.size + image.width - 1) / image.width

def row (image : Image) (y : Nat) : List Color :=
  (image.pixels.extract (y * image.width) (y * image.width + image.width)).toList

def rowsTopDown (image : Image) : List (List Color) :=
  ((List.range image.rowCount).map image.row).reverse

end Image

end Easel
