import Easel.Text.Letters
import Easel.Text.Numerals

/-! The classes of characters that words are made of. Blanks separate words; a name starts with a
letter and goes on with letters, numerals and underscores. -/

namespace Easel.Text

/-- Whether a code point lies in one of the ranges of a table. -/
def inRanges (ranges : Array (Nat × Nat)) (code : Nat) : Bool :=
  ranges.any fun range => range.1 ≤ code && code ≤ range.2

/-- The Unicode property White_Space: tab to carriage return, the space, next line, the no-break
spaces, the spaces of the general punctuation block and the ideographic space. -/
def isBlank (c : Char) : Bool :=
  let code := c.toNat
  (0x9 ≤ code && code ≤ 0xD) || code == 0x20 || code == 0x85 || code == 0xA0 || code == 0x1680 ||
    (0x2000 ≤ code && code ≤ 0x200A) || code == 0x2028 || code == 0x2029 || code == 0x202F ||
    code == 0x205F || code == 0x3000

/-- The Unicode property Alphabetic. -/
def isLetter (c : Char) : Bool :=
  if c.toNat < 128 then c.isAlpha else inRanges letterRanges c.toNat

/-- The property Alphabetic, or one of the Unicode categories of numbers. -/
def isLetterOrNumeral (c : Char) : Bool :=
  if c.toNat < 128 then c.isAlphanum
  else inRanges letterRanges c.toNat || inRanges numeralRanges c.toNat

def trim (text : List Char) : List Char :=
  ((text.dropWhile isBlank).reverse.dropWhile isBlank).reverse

/-- Whether a text is a name: a letter, and then letters, numerals and underscores. -/
def isName : List Char → Bool
  | [] => false
  | c :: rest => isLetter c && rest.all fun c => isLetterOrNumeral c || c == '_'

end Easel.Text
