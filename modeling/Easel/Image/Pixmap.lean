import Easel.Image.Basic
import Easel.Number.Literal
import Easel.Text.Utf8

/-! Images as portable pixmaps. A file has four header fields, the word `P6`, the width, the height
and the greatest value of a channel, then a single blank, and then three bytes for each pixel. The
top row comes first. -/

namespace Easel

/-- Why a file is not read. -/
inductive PixmapError where
  | magic (found : String)
  | header (fault : String)
  | maxValue (found : Nat)
  | truncated (expected found : Nat)
  deriving DecidableEq, Repr

/-- The sentence that states why a file is not read. -/
def PixmapError.message : PixmapError → String
  | magic found => s!"not a binary PPM file (magic '{found}')."
  | header fault => s!"malformed header: {fault}."
  | maxValue found => s!"unsupported maximum value {found} (expected 255)."
  | truncated expected found =>
    s!"pixel data truncated: expected {expected} bytes, got {found}."

def Color.bytes (c : Color) : List UInt8 := [c.red, c.green, c.blue]

namespace Pixmap

def magic : String := "P6"

def maxValue : Nat := 255

def header (width height : Nat) : String := s!"{magic} {width} {height} {maxValue}\n"

/-- The bytes of the pixels, from the top row down. -/
def body (image : Image) : List UInt8 :=
  image.rowsTopDown.flatMap fun row => row.flatMap Color.bytes

def encode (image : Image) : List UInt8 :=
  Utf8.encode (header image.width image.height) ++ body image

/-- Whether one piece of memory can hold a row as a machine counts its bytes. An image is not
written beyond its header if not. -/
def hasRoom (o : Overflow) (width : Nat) : Bool :=
  (o.count? (width * 3 : Nat)).any fun count => count ≤ Word.maxBytes

/-- The blanks that separate header fields: space, tab, line feed, form feed, carriage return. -/
def isBlank (b : UInt8) : Bool :=
  b = 0x20 || b = 0x09 || b = 0x0A || b = 0x0C || b = 0x0D

/-- What is left after blanks and comments. A comment starts with a number sign and ends before a
line feed. -/
def skip (inComment : Bool) : List UInt8 → List UInt8
  | [] => []
  | b :: rest =>
    if inComment && b != 0x0A then skip true rest
    else if b = 0x23 then skip true rest
    else if isBlank b then skip false rest
    else b :: rest

/-- Reads a header field: the bytes up to the next blank, and what follows them. -/
def field (bytes : List UInt8) : Except PixmapError (List UInt8 × List UInt8) :=
  let bytes := skip false bytes
  let found := bytes.takeWhile fun b => !isBlank b
  if found.isEmpty then .error (.header "unexpected end of header")
  else .ok (found, bytes.dropWhile fun b => !isBlank b)

def numberField (what : String) (bytes : List UInt8) :
    Except PixmapError (Nat × List UInt8) := do
  let (found, rest) ← field bytes
  let text := Utf8.lossyText found
  match Literal.natural? text.toList with
  | some n => return (n, rest)
  | none => throw (.header s!"{what} '{text}' is not a number")

/-- What a file contains: the size of an image, and the bytes behind the header. -/
structure Contents where
  width : Nat
  height : Nat
  data : List UInt8

/-- Reads the header of a file. One byte separates it from what follows. -/
def contents (bytes : List UInt8) : Except PixmapError Contents := do
  let (word, rest) ← field bytes
  let word := Utf8.lossyText word
  if word ≠ magic then throw (.magic word)
  let (width, rest) ← numberField "width" rest
  let (height, rest) ← numberField "height" rest
  let (greatest, rest) ← numberField "maximum value" rest
  if greatest ≠ maxValue then throw (.maxValue greatest)
  return ⟨width, height, rest.drop 1⟩

end Pixmap

end Easel
