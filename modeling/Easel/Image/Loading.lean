import Easel.Image.Pixmap

/-! Reading a pixmap into memory. The bytes of a file and the pixels of its image are counted,
memory is asked for, and then the pixels are stored row by row. -/

namespace Easel.Pixmap

/-- The colours that bytes hold, three bytes each. -/
def colors : List UInt8 → List Color
  | red :: green :: blue :: rest => ⟨red, green, blue⟩ :: colors rest
  | _ => []

/-- Bytes in rows of a given size. The last row has what is left. -/
def rows (size : Nat) (data : List UInt8) : List (List UInt8) :=
  (List.range ((data.length + size - 1) / size)).map fun i => (data.drop (i * size)).take size

/-- The colours of a row for the pixels at a given height. -/
def dots (y : Nat) (row : List UInt8) : List Dot :=
  (colors row).zipIdx.map fun pixel => ⟨pixel.2, y, pixel.1⟩

/-- Stores the row with the given number from the top. -/
def storeRow? (o : Overflow) (image : Image) (row : List UInt8 × Nat) : Option Image := do
  let y ← o.count? (image.height - 1 - row.2)
  (dots y row.1).foldlM (Image.set? o) image

/-- The image that is in memory behind the header of a file, or why there is none. -/
def store? (o : Overflow) (file : Contents) : Option (Except PixmapError Image) := do
  let rowSize ← o.count? (file.width * 3 : Nat)
  let expected ← o.count? (rowSize * file.height : Nat)
  if file.data.length < expected then
    return .error (.truncated expected file.data.length)
  let image ← Image.filled? o file.width file.height .black
  if expected = 0 then return .ok image
  let image ← (rows rowSize (file.data.take expected)).zipIdx.foldlM (storeRow? o) image
  return .ok image

/-- Reads a file: the image in it, or what is wrong with it. There is no result if the machine stops
on the way. What follows the last pixel is ignored. -/
def decode? (o : Overflow) (bytes : List UInt8) : Option (Except PixmapError Image) :=
  match contents bytes with
  | .error e => some (.error e)
  | .ok file => store? o file

end Easel.Pixmap
