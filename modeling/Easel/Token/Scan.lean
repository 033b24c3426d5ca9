import Easel.Number.Literal
import Easel.Text.Character
import Easel.Token.Basic

/-! From source text to tokens, one character at a time. Blanks and comments separate words, and a
comment runs from a number sign to the end of its line. Brackets, asterisks and slashes are tokens
of their own. All other characters gather in a word, which is classified when it ends.

A dot belongs to the word around it, with two exceptions: it stands alone behind a name, and it
stands alone at the start of a word that follows a closing bracket. A plus or minus without digits
is an operator right behind an opening parenthesis, and an error everywhere else. -/

namespace Easel

/-- What is wrong with a word that is no token. -/
inductive Malformed where
  | misplacedOperator (text : String)
  | invalidElement (text : String)
  deriving DecidableEq, Repr

namespace Scanner

/-- The kind of a character that is a token by itself. -/
def delimiter? : Char → Option TokenKind
  | '{' => some .openBrace
  | '}' => some .closeBrace
  | '(' => some .openParen
  | ')' => some .closeParen
  | '*' | '/' => some .operator
  | _ => none

def isSign (c : Char) : Bool := c = '+' || c = '-'

/-- Whether a character can be a part of a number. -/
def isNumeric (c : Char) : Bool := Literal.isDigit c || c = '.' || isSign c

/-- Whether a word has its only sign, if it has any, in front. -/
def signsLead (word : List Char) : Bool := !word.tail.any isSign

/-- The kind of a complete word that follows a token of kind `last`. -/
def classify (last : Option TokenKind) (word : List Char) : Except Malformed TokenKind :=
  let text := String.ofList word
  if word.all isNumeric then
    if word.any Literal.isDigit then
      if !signsLead word then .error (.misplacedOperator text)
      else if 1 < word.count '.' then .error (.invalidElement text)
      else .ok .number
    else if last = some .openParen ∧ (word = ['+'] ∨ word = ['-']) then .ok .operator
    else if word.any isSign then .error (.misplacedOperator text)
    else .error (.invalidElement text)
  else if Text.isName word then .ok .name
  else .error (.invalidElement text)

end Scanner

/-- A word that is still being read: where it starts, and its characters with the last one
first. -/
structure PendingWord where
  start : Cursor
  reversed : List Char

namespace PendingWord

def characters (w : PendingWord) : List Char := w.reversed.reverse

def text (w : PendingWord) : String := String.ofList w.characters

def position (w : PendingWord) : Position := w.start.position w.text.utf8ByteSize

end PendingWord

/-- What scanning has come to: where the next character stands, whether it is in a comment, the
word that it may continue, and the tokens so far with the last one first. -/
structure Scanner where
  cursor : Cursor
  inComment : Bool
  word : Option PendingWord
  reversed : List Token

namespace Scanner

/-- A malformed word and its place. -/
structure Fault where
  position : Position
  cause : Malformed
  deriving DecidableEq, Repr

/-- The state before the first character. -/
def start : Scanner := ⟨.start, false, none, []⟩

/-- The kind of the last token so far. -/
def lastKind? (s : Scanner) : Option TokenKind := s.reversed.head?.map (·.kind)

/-- Ends the word that is being read, if there is one, and makes it a token. -/
def endWord (s : Scanner) : Except Fault Scanner :=
  match s.word with
  | none => .ok s
  | some w =>
    match classify s.lastKind? w.characters with
    | .error cause => .error ⟨w.position, cause⟩
    | .ok kind => .ok { s with word := none, reversed := ⟨kind, w.text, w.position⟩ :: s.reversed }

/-- Appends the token that the character `c` is by itself. -/
def emit (s : Scanner) (kind : TokenKind) (c : Char) : Scanner :=
  { s with
    reversed := ⟨kind, String.singleton c, s.cursor.position c.utf8Size⟩ :: s.reversed }

/-- Continues the word that is being read with `c`, or starts a word with it. -/
def gather (s : Scanner) (c : Char) : Scanner :=
  match s.word with
  | none => { s with word := some ⟨s.cursor, [c]⟩ }
  | some w => { s with word := some { w with reversed := c :: w.reversed } }

/-- Whether a dot that comes next is a token, rather than a part of a word. -/
def dotStandsAlone (s : Scanner) : Bool :=
  match s.word with
  | none => s.lastKind? = some .closeBrace || s.lastKind? = some .closeParen
  | some w => Text.isName w.characters

/-- Takes in the character `c` outside a comment and leaves the cursor in front of it. -/
def read (s : Scanner) (c : Char) : Except Fault Scanner :=
  if c = '#' then return { ← s.endWord with inComment := true }
  else if Text.isBlank c then s.endWord
  else
    match delimiter? c with
    | some kind => return (← s.endWord).emit kind c
    | none =>
      if c = '.' ∧ s.dotStandsAlone then return (← s.endWord).emit .dot c
      else return s.gather c

/-- Takes in the next character. A line feed ends a comment. -/
def step (s : Scanner) (c : Char) : Except Fault Scanner := do
  let next ←
    if s.inComment then pure (if c = '\n' then { s with inComment := false } else s)
    else s.read c
  return { next with cursor := s.cursor.advance c }

/-- Takes in a list of characters, up to the first malformed word. -/
def run (s : Scanner) (source : List Char) : Except Fault Scanner := source.foldlM step s

/-- Ends the text: the tokens in order, and a last one that marks the end of the file. -/
def finish (s : Scanner) : Except Fault (List Token) := do
  let done ← s.endWord
  return (⟨.endOfFile, "", s.cursor.afterLast⟩ :: done.reversed).reverse

end Scanner

/-- The tokens of a source text, or its first malformed word. -/
def Token.scan (source : List Char) : Except Scanner.Fault (List Token) :=
  Scanner.start.run source >>= Scanner.finish

end Easel
