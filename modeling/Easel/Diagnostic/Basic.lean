import Easel.Diagnostic.Violation
import Easel.Token.Scan

/-! What the program reports when it gives up: one line of text, a code that names the stage, the
marked stretch of the source, and advice. -/

namespace Easel

/-- The sentence that states what is wrong with a word. -/
def Malformed.message : Malformed → String
  | misplacedOperator text => s!"misplaced operator ('{text}')."
  | invalidElement text => s!"invalid element ('{text}')."

/-- A report. The first two kinds name the source file and a place in it. -/
inductive Diagnostic where
  | malformed (file : String) (position : Position) (cause : Malformed)
  | rejected (file : String) (position : Position) (cause : Violation) (help : Option String)
  | input (text : String)
  | unreadable (path : String)
  | unwritable (path : String)
  deriving DecidableEq

namespace Diagnostic

/-- The line that reports a fault at a place in a file. -/
def located (file : String) (position : Position) (message : String) : String :=
  s!"{file}:{position.text}: error: {message}"

def message : Diagnostic → String
  | malformed file position cause => located file position cause.message
  | rejected file position cause _ => located file position cause.message
  | input text => text
  | unreadable path => s!"unable to open file '{path}'."
  | unwritable path => s!"unable to write file '{path}'."

def code : Diagnostic → String
  | malformed .. => "painter::lex"
  | rejected .. => "painter::parse"
  | input _ => "painter::input"
  | unreadable _ | unwritable _ => "painter::io"

/-- The place in the source, for a report that has one. -/
def position? : Diagnostic → Option Position
  | malformed _ position _ | rejected _ position _ _ => some position
  | _ => none

/-- What the marked stretch of the source is labelled with. -/
def label? : Diagnostic → Option String
  | malformed .. => some "malformed token"
  | rejected .. => some "here"
  | _ => none

def help? : Diagnostic → Option String
  | rejected _ _ _ help => help
  | _ => none

/-- Replaces the advice. Only a rejected description can carry any. -/
def withHelp (advice : String) : Diagnostic → Diagnostic
  | rejected file position cause _ => rejected file position cause (some advice)
  | d => d

end Diagnostic

end Easel
