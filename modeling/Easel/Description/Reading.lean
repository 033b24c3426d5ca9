import Easel.Scene.Statement
import Easel.Token.Basic

/-! The steps of reading a description. A step starts from the tokens that are left, looks names up
in the scene so far, and ends with a value and fewer tokens, or with a rejection. The list of
tokens ends before the mark for the end of the file, of which only the place is kept. -/

namespace Easel.Description

/-- What a step knows besides the tokens: the scene so far, and where the end of the file is. -/
structure Context where
  scene : Scene
  stop : Position

/-- What a step has read from `ts`: a value, and the tokens behind it, which are fewer. -/
structure Reading (ts : List Token) (β : Type) where
  value : β
  rest : List Token
  shorter : rest.length < ts.length

namespace Reading

variable {ts : List Token} {β γ : Type}

/-- What is read by two steps, of which the second starts where the first one ends: the value of
the second. -/
def andThen (first : Reading ts β) (second : Reading first.rest γ) : Reading ts γ :=
  ⟨second.value, second.rest, Nat.lt_trans second.shorter first.shorter⟩

def giving (r : Reading ts β) (value : γ) : Reading ts γ := ⟨value, r.rest, r.shorter⟩

def after (t : Token) (r : Reading ts β) : Reading (t :: ts) β :=
  ⟨r.value, r.rest, Nat.lt_succ_of_lt r.shorter⟩

end Reading

namespace Context

def position (c : Context) : List Token → Position
  | [] => c.stop
  | t :: _ => t.position

/-- What messages quote for the next token. -/
def quoted : List Token → String
  | [] => TokenKind.endOfFile.description
  | t :: _ => t.quoted

/-- The rejection of the next token where something else was wanted. -/
def unexpected (c : Context) (wanted : String) (ts : List Token) : Rejection :=
  ⟨c.position ts, .expected wanted (quoted ts), none⟩

end Context

/-- The advice to write a name that was probably meant. -/
def suggestion (name : String) : String := s!"did you mean '{name}'?"

def expect (c : Context) (kind : TokenKind) (wanted : String) :
    (ts : List Token) → Except Rejection (Reading ts Token)
  | [] => .error (c.unexpected wanted [])
  | t :: rest =>
    if t.kind = kind then .ok ⟨t, rest, by simp⟩ else .error (c.unexpected wanted (t :: rest))

/-- Reads a token of the given kind, which messages call by its description. -/
def expectKind (c : Context) (kind : TokenKind) (ts : List Token) :
    Except Rejection (Reading ts Token) :=
  expect c kind kind.description ts

/-- Reads the name of a declared shape and gives its place in the drawing. -/
def shapeReference (c : Context) (ts : List Token) : Except Rejection (Reading ts Nat) := do
  let ⟨t, rest, shorter⟩ ← expect c .name "a shape name" ts
  match c.scene.shape? t.text with
  | some id => return ⟨id, rest, shorter⟩
  | none =>
    throw ⟨t.position, .undefinedShape t.text,
      (c.scene.shapeNames.suggest? t.text).map suggestion⟩

/-- Reads a name that is about to be declared in a table. It is looked up before the rest of the
declaration is read, so a shape cannot refer to itself. -/
def newName {β : Type} (c : Context) (table : Declarations β) (wanted : String)
    (duplicate : String → Position → Violation) (ts : List Token) :
    Except Rejection (Reading ts Token) := do
  let ⟨t, rest, shorter⟩ ← expect c .name wanted ts
  match table.position? t.text with
  | some first => throw ⟨t.position, duplicate t.text first, none⟩
  | none => return ⟨t, rest, shorter⟩

/-- Reads the name of a shape that is about to be declared. -/
def newShapeName (c : Context) (ts : List Token) : Except Rejection (Reading ts Token) :=
  newName c c.scene.shapeNames "a shape name" .duplicateShape ts

/-- Reads the name of a colour that is about to be declared. -/
def newColorName (c : Context) (ts : List Token) : Except Rejection (Reading ts Token) :=
  newName c c.scene.colors "a color name" .duplicateColor ts

end Easel.Description
