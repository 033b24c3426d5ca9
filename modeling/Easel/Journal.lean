/-! The journal: what the program notes about its own work, one line for each entry, with the
level in the colour of a terminal. -/

namespace Easel

/-- How much an entry matters, from the most to the least. -/
inductive Level where
  | error
  | warn
  | info
  | debug
  | trace
  deriving DecidableEq, Repr

namespace Level

/-- The place of a level in the order, where higher levels matter less. -/
def rank : Level → Nat
  | error => 1
  | warn => 2
  | info => 3
  | debug => 4
  | trace => 5

/-- The name of a level, padded to five characters. -/
def label : Level → String
  | error => "ERROR"
  | warn => "WARN "
  | info => "INFO "
  | debug => "DEBUG"
  | trace => "TRACE"

/-- The codes that make a terminal show a level in its colour: bold red, bold yellow, cyan, and
dimmed grey. -/
def style : Level → String
  | error => "1;31"
  | warn => "1;33"
  | info => "36"
  | debug | trace => "2;38;5;7"

/-- Whether entries of a level are written when `most` is the last level to write, and none is when
there is no such level. -/
def enabled (level : Level) (most : Option Level) : Bool :=
  match most with
  | some m => level.rank ≤ m.rank
  | none => false

end Level

def styled (style text : String) : String := s!"\x1b[{style}m{text}\x1b[0m"

/-- An entry of the journal. The target is the part of the program that wrote it. -/
structure Entry where
  level : Level
  target : String
  message : String
  deriving DecidableEq, Repr

/-- The line of an entry: its level, its target in blue, and its message. -/
def Entry.line (e : Entry) : String :=
  let level := styled e.level.style ("[" ++ e.level.label ++ "]")
  let target := styled "34" e.target
  s!"{level} {target} {e.message}"

end Easel
