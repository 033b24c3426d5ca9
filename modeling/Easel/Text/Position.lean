/-! Places in a source text. -/

namespace Easel

/-- A stretch of the source. `line` and `column` say where it starts and count from one, in
characters; `offset` and `length` measure the same stretch in UTF-8 bytes. -/
structure Position where
  line : Nat
  column : Nat
  offset : Nat
  length : Nat
  deriving DecidableEq, Repr, Inhabited

namespace Position

/-- The place of something that is in no source. -/
def nowhere : Position := ⟨0, 0, 0, 0⟩

/-- A position as messages give it: the line and the column. -/
def text (p : Position) : String := s!"{p.line}:{p.column}"

end Position

/-- Where the next character of a source text stands. -/
structure Cursor where
  line : Nat
  column : Nat
  offset : Nat
  deriving DecidableEq, Repr

namespace Cursor

/-- The beginning of a text. -/
def start : Cursor := ⟨1, 1, 0⟩

/-- The cursor behind the character `c`. A line feed ends its line. -/
def advance (k : Cursor) (c : Char) : Cursor :=
  if c = '\n' then ⟨k.line + 1, 1, k.offset + c.utf8Size⟩
  else ⟨k.line, k.column + 1, k.offset + c.utf8Size⟩

/-- A stretch of `length` bytes that starts at the cursor. -/
def position (k : Cursor) (length : Nat) : Position := ⟨k.line, k.column, k.offset, length⟩

/-- The place behind the last line of a text whose end is at the cursor: one line further down,
before the first column. A line that has no characters yet is not counted as a line. -/
def afterLast (k : Cursor) : Position :=
  ⟨if k.column = 1 then k.line else k.line + 1, 0, k.offset, 0⟩

end Cursor

end Easel
