import Easel.Description.Basic

/-! Reading a description with an index into an array of tokens. A walk looks at the token at the
index, or takes it and moves on. It stops when there is no token there, and when it would take a
mark for the end of the file. Loops and nested phrases have a number of steps that they may take. -/

namespace Easel

open Description

namespace Indexed

/-- Why a walk stops before its end. -/
inductive Halt where
  | rejected (r : Rejection)
  | noToken (index : Nat)
  | endTaken (index : Nat)
  | outOfSteps

/-- A walk over tokens, from an index to a value and another index. -/
def Walk (β : Type) : Type := Array Token → Nat → Except Halt (β × Nat)

variable {β γ : Type}

/-- The walk that goes on from where another one ends. -/
def Walk.andThen (walk : Walk β) (next : β → Walk γ) : Walk γ := fun tokens i =>
  match walk tokens i with
  | .ok (b, j) => next b tokens j
  | .error h => .error h

instance : Monad Walk where
  pure b := fun _ i => .ok (b, i)
  bind := Walk.andThen

def halt (h : Halt) : Walk β := fun _ _ => .error h

def reject (r : Rejection) : Walk β := halt (.rejected r)

def peek : Walk Token := fun tokens i =>
  match tokens[i]? with
  | some t => .ok (t, i)
  | none => .error (.noToken i)

/-- Takes the token at the index, which is no mark for the end of the file. -/
def advance : Walk Token := fun tokens i =>
  match tokens[i]? with
  | some t => if t.isEnd then .error (.endTaken i) else .ok (t, i + 1)
  | none => .error (.noToken i)

/-! ### Names and single tokens -/

def unexpected (wanted : String) : Walk β := do
  let t ← peek
  reject ⟨t.position, .expected wanted t.quoted, none⟩

def expect (kind : TokenKind) (wanted : String) : Walk Token := do
  let t ← peek
  if t.kind = kind then advance else unexpected wanted

def expectKind (kind : TokenKind) : Walk Token := expect kind kind.description

def shapeReference (s : Scene) : Walk Nat := do
  let t ← expect .name "a shape name"
  match s.shape? t.text with
  | some id => return id
  | none =>
    reject ⟨t.position, .undefinedShape t.text, (s.shapeNames.suggest? t.text).map suggestion⟩

def newName (table : Declarations γ) (wanted : String)
    (duplicate : String → Position → Violation) : Walk Token := do
  let t ← expect .name wanted
  match table.position? t.text with
  | some first => reject ⟨t.position, duplicate t.text first, none⟩
  | none => return t

def namedPoint (s : Scene) : Walk (Point Float) := do
  let id ← shapeReference s
  let _ ← expectKind .dot
  let landmark ← expect .name "a point name"
  match s.drawing.landmark? id landmark.text with
  | some p => return p
  | none =>
    let name := s.drawing.nameOf id
    let available := ", ".intercalate (s.drawing.landmarkNames id)
    reject ⟨landmark.position, .unknownLandmark name landmark.text,
      some s!"'{name}' has: {available}"⟩

def coordinate (p : Point Float) (axis : Token) : Walk Float :=
  match Description.coordinate p axis with
  | .ok x => return x
  | .error r => reject r

/-! ### Numbers and points -/

mutual

def number (s : Scene) : Nat → Walk Float
  | 0 => halt .outOfSteps
  | steps + 1 => do
    let t ← peek
    if t.kind = .number then
      let _ ← advance
      match Literal.read? t.text.toList with
      | some x => return x
      | none => reject ⟨t.position, .expected "a number" t.text, none⟩
    else if t.kind.startsPoint then
      let p ← point s steps
      let _ ← expectKind .dot
      let axis ← expect .name "a coordinate"
      coordinate p axis
    else unexpected "a number"

def point (s : Scene) : Nat → Walk (Point Float)
  | 0 => halt .outOfSteps
  | steps + 1 => do
    let t ← peek
    match t.kind with
    | .openBrace =>
      let _ ← advance
      let x ← number s steps
      let y ← number s steps
      let _ ← expectKind .closeBrace
      return ⟨x, y⟩
    | .name => namedPoint s
    | .openParen =>
      let _ ← expectKind .openParen
      let operator ← expectKind .operator
      let p ← operation s operator steps
      let _ ← expectKind .closeParen
      return p
    | _ => unexpected "a point"

def operation (s : Scene) (operator : Token) : Nat → Walk (Point Float)
  | 0 => halt .outOfSteps
  | steps + 1 =>
    if operator.text = "+" then do
      let (first, others) ← points s steps
      return others.foldl (· + ·) first
    else if operator.text = "-" then do
      let (first, others) ← points s steps
      return others.foldl (· - ·) first
    else if operator.text = "*" then do
      let p ← point s steps
      let k ← number s steps
      return p.scale k
    else if operator.text = "/" then do
      let p ← point s steps
      let k ← number s steps
      if k == 0.0 then reject ⟨operator.position, .divisionByZero, none⟩
      else return p.divide k
    else reject ⟨operator.position, .expected "an operator" operator.text, none⟩

/-- A loop that goes on as long as a point can start at the index. -/
def points (s : Scene) : Nat → Walk (Point Float × List (Point Float))
  | 0 => halt .outOfSteps
  | steps + 1 => do
    let p ← point s steps
    let t ← peek
    if t.kind.startsPoint then
      let (q, more) ← points s steps
      return (p, q :: more)
    else return (p, [])

end

def positive (s : Scene) (quantity : Quantity) (steps : Nat) : Walk Float := do
  let t ← peek
  let x ← number s steps
  if x ≤ 0.0 then reject ⟨t.position, .outOfRange quantity .positive x, none⟩
  else return x

def channel (s : Scene) (steps : Nat) : Walk Float := do
  let t ← peek
  let x ← number s steps
  if !Color.isChannel x then
    reject ⟨t.position, .outOfRange .colorChannel .unitInterval x, none⟩
  else return x

def color (s : Scene) (steps : Nat) : Walk Color := do
  let t ← peek
  match t.kind with
  | .openBrace =>
    let _ ← advance
    let red ← channel s steps
    let green ← channel s steps
    let blue ← channel s steps
    let _ ← expectKind .closeBrace
    return .ofChannels red green blue
  | .name =>
    let _ ← advance
    match s.color? t.text with
    | some value => return value
    | none =>
      reject ⟨t.position, .undefinedColor t.text, (s.colors.suggest? t.text).map suggestion⟩
  | _ => unexpected "a color"

/-! ### Statements -/

def dimension (s : Scene) (quantity : Quantity) (steps : Nat) : Walk Nat := do
  let t ← peek
  let x ← number s steps
  if x < 0.0 || !Binary64.isWhole x then
    reject ⟨t.position, .outOfRange quantity .nonNegativeInteger x, none⟩
  else if 18446744073709551616.0 ≤ x then
    reject ⟨t.position, .outOfRange quantity .addressable x, none⟩
  else return Binary64.toIndex x

def canvas (s : Scene) (steps : Nat) : Walk (Nat × Nat) := do
  let t ← peek
  if t.kind = .name ∧ t.text = sizeKeyword then
    let _ ← advance
    let width ← dimension s .width steps
    let height ← dimension s .height steps
    if Word.maxBytes < width * height * 3 then
      reject ⟨t.position,
        .outOfRange .canvas .allocatable (Float.ofNat width * Float.ofNat height), none⟩
    else return (width, height)
  else reject ⟨t.position, .missingSize t.quoted, none⟩

/-- A loop that goes on as long as there is a name at the index. -/
def references (s : Scene) : Nat → Walk (List Nat)
  | 0 => halt .outOfSteps
  | steps + 1 => do
    let id ← shapeReference s
    let t ← peek
    if t.kind = .name then
      let more ← references s steps
      return id :: more
    else return [id]

def circle (s : Scene) (steps : Nat) : Walk (Form Float) := do
  let center ← point s steps
  let radius ← positive s .radius steps
  return .circle center radius

def ellipse (s : Scene) (steps : Nat) : Walk (Form Float) := do
  let center ← point s steps
  let major ← positive s .semiMajorAxis steps
  let t ← peek
  let minor ← positive s .semiMinorAxis steps
  if major < minor then
    reject ⟨t.position, .outOfRange .semiMinorAxis .atMostSemiMajorAxis minor, none⟩
  else return .ellipse center major minor

def rectangle (s : Scene) (steps : Nat) : Walk (Form Float) := do
  let center ← point s steps
  let width ← positive s .width steps
  let height ← positive s .height steps
  return .rectangle center width height

def triangle (s : Scene) (steps : Nat) : Walk (Form Float) := do
  let v0 ← point s steps
  let v1 ← point s steps
  let v2 ← point s steps
  return .triangle v0 v1 v2

def shifted (s : Scene) (steps : Nat) : Walk (Form Float) := do
  let offset ← point s steps
  let target ← shapeReference s
  return .shifted offset target

def rotated (s : Scene) (steps : Nat) : Walk (Form Float) := do
  let degrees ← number s steps
  let pivot ← point s steps
  let target ← shapeReference s
  return .rotated degrees pivot target

def union (s : Scene) (steps : Nat) : Walk (Form Float) := do
  let _ ← expectKind .openBrace
  let members ← references s steps
  let _ ← expectKind .closeBrace
  return .union members

def difference (s : Scene) (_steps : Nat) : Walk (Form Float) := do
  let base ← shapeReference s
  let subtrahend ← shapeReference s
  return .difference base subtrahend

def shapeDeclaration (body : Scene → Nat → Walk (Form Float)) (s : Scene) (steps : Nat) :
    Walk Statement := do
  let name ← newName s.shapeNames "a shape name" .duplicateShape
  let form ← body s steps
  return .shape name.text name.position form

def colorDeclaration (s : Scene) (steps : Nat) : Walk Statement := do
  let name ← newName s.colors "a color name" .duplicateColor
  let value ← color s steps
  return .color name.text name.position value

def fill (s : Scene) (steps : Nat) : Walk Statement := do
  let target ← shapeReference s
  let value ← color s steps
  return .fill target value

def body : Keyword → Scene → Nat → Walk Statement
  | .circle => shapeDeclaration circle
  | .ellipse => shapeDeclaration ellipse
  | .rectangle => shapeDeclaration rectangle
  | .triangle => shapeDeclaration triangle
  | .shift => shapeDeclaration shifted
  | .rotate => shapeDeclaration rotated
  | .union => shapeDeclaration union
  | .difference => shapeDeclaration difference
  | .color => colorDeclaration
  | .fill => fill

def statement [Keyword.Order] (s : Scene) (steps : Nat) : Walk Statement := do
  let t ← advance
  if t.kind ≠ .name then reject ⟨t.position, .invalidKeyword t.quoted, none⟩
  else
    match Keyword.ofText? t.text with
    | none =>
      reject ⟨t.position, .unknownKeyword t.text, (Keyword.suggest? t.text).map suggestion⟩
    | some keyword => body keyword s steps

/-! ### Descriptions -/

/-- The loop over the statements, which ends in front of a mark for the end of the file. -/
def statements [Keyword.Order] : Nat → Scene → Walk Scene
  | 0, _ => halt .outOfSteps
  | steps + 1, s => do
    let t ← peek
    if t.isEnd then return s
    else
      let st ← statement s steps
      match s.apply st with
      | .ok next => statements steps next
      | .error r => reject r

def scene [Keyword.Order] (steps : Nat) : Walk Scene := do
  let (width, height) ← canvas (.blank 0 0) steps
  statements steps (.blank width height)

/-- Tokens with a mark for the end of the file behind them, if it is not there already. -/
def closed (tokens : List Token) : List Token :=
  let last := (tokens.getLast?.map (·.position)).getD .nowhere
  if tokens.getLast?.any Token.isEnd then tokens
  else tokens ++ [⟨.endOfFile, "", { last with line := (last.line + 1) % Word.size, column := 0 }⟩]

/-- Walks over a list of tokens from its beginning, in at most so many steps. -/
def run [Keyword.Order] (steps : Nat) (tokens : List Token) : Except Halt Scene :=
  (scene steps (closed tokens).toArray 0).map (·.1)

end Indexed

end Easel
