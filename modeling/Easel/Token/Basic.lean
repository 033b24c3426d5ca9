import Easel.Text.Position

/-! The tokens of a scene description: names, numbers, brackets, dots and operators, each with its
text and its place in the source. -/

namespace Easel

/-- The kinds of tokens. The last kind holds the signs and the marks of multiplication and
division. -/
inductive TokenKind where
  | endOfFile
  | name
  | number
  | dot
  | openBrace
  | closeBrace
  | openParen
  | closeParen
  | operator
  deriving DecidableEq, Repr

namespace TokenKind

/-- What messages call a token of this kind. -/
def description : TokenKind → String
  | endOfFile => "end of file"
  | name => "a name"
  | number => "a number"
  | dot => "'.'"
  | openBrace => "'\x7b'"
  | closeBrace => "'\x7d'"
  | openParen => "'('"
  | closeParen => "')'"
  | operator => "an operator"

/-- Whether a point can start with a token of this kind. -/
def startsPoint : TokenKind → Bool
  | name | openBrace | openParen => true
  | _ => false

end TokenKind

/-- A token. The position is that of its text in the source. -/
structure Token where
  kind : TokenKind
  text : String
  position : Position
  deriving DecidableEq, Repr

namespace Token

/-- What a token is wherever it stands: its kind and its text. -/
def lexeme (t : Token) : TokenKind × String := (t.kind, t.text)

def isEnd (t : Token) : Bool := t.kind = .endOfFile

/-- What messages quote for a token: its text, or the words for the end of the file. -/
def quoted (t : Token) : String :=
  match t.kind with
  | .endOfFile => TokenKind.endOfFile.description
  | _ => t.text

end Token

end Easel
