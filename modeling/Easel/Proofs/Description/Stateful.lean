import Easel.Proofs.Description.Indexed

/-! Reading a description into a scene that changes on the way. A step of reading has the index of
the next token and the scene so far for its state, may change both, and leaves them behind whether
it comes to a value or stops. No step is told which scene to look names up in: each of them looks at
the state that it finds. -/

namespace Easel

open Description

namespace Stateful

/-- Where reading stands: the index of the next token, and the scene so far. -/
structure State where
  index : Nat
  scene : Scene

/-- Why reading stops before its end. A name that is found taken only when what it stands for has
been read is told apart from all other reasons. -/
inductive Stop where
  | halted (h : Indexed.Halt)
  | takenAfterBody (r : Rejection)

/-- A step of reading: from a state to a value or a reason to stop, and in both cases to another
state. -/
def Act (β : Type) : Type := Array Token → State → Except Stop β × State

variable {β γ : Type}

/-- The act that goes on in the state that another one leaves behind. -/
def Act.andThen (act : Act β) (next : β → Act γ) : Act γ := fun tokens state =>
  match act tokens state with
  | (.ok b, after) => next b tokens after
  | (.error e, after) => (.error e, after)

instance : Monad Act where
  pure b := fun _ state => (.ok b, state)
  bind := Act.andThen

def stop (e : Stop) : Act β := fun _ state => (.error e, state)

def reject (r : Rejection) : Act β := stop (.halted (.rejected r))

def currentScene : Act Scene := fun _ state => (.ok state.scene, state)

def putScene (s : Scene) : Act Unit := fun _ state => (.ok (), { state with scene := s })

def peek : Act Token := fun tokens state =>
  match tokens[state.index]? with
  | some t => (.ok t, state)
  | none => (.error (.halted (.noToken state.index)), state)

/-- Takes the next token, which is no mark for the end of the file. -/
def advance : Act Token := fun tokens state =>
  match tokens[state.index]? with
  | some t =>
    if t.isEnd then (.error (.halted (.endTaken state.index)), state)
    else (.ok t, { state with index := state.index + 1 })
  | none => (.error (.halted (.noToken state.index)), state)

/-! ### Names and single tokens -/

def unexpected (wanted : String) : Act β := do
  let t ← peek
  reject ⟨t.position, .expected wanted t.quoted, none⟩

def expect (kind : TokenKind) (wanted : String) : Act Token := do
  let t ← peek
  if t.kind = kind then advance else unexpected wanted

def expectKind (kind : TokenKind) : Act Token := expect kind kind.description

def shapeReference : Act Nat := do
  let t ← expect .name "a shape name"
  let s ← currentScene
  match s.shape? t.text with
  | some id => return id
  | none =>
    reject ⟨t.position, .undefinedShape t.text, (s.shapeNames.suggest? t.text).map suggestion⟩

def newName (table : Scene → Declarations γ) (wanted : String)
    (duplicate : String → Position → Violation) : Act Token := do
  let t ← expect .name wanted
  let s ← currentScene
  match (table s).position? t.text with
  | some first => reject ⟨t.position, duplicate t.text first, none⟩
  | none => return t

def newShapeName : Act Token := newName Scene.shapeNames "a shape name" .duplicateShape

def newColorName : Act Token := newName Scene.colors "a color name" .duplicateColor

def namedPoint : Act (Point Float) := do
  let id ← shapeReference
  let _ ← expectKind .dot
  let landmark ← expect .name "a point name"
  let s ← currentScene
  match s.drawing.landmark? id landmark.text with
  | some p => return p
  | none =>
    let name := s.drawing.nameOf id
    let available := ", ".intercalate (s.drawing.landmarkNames id)
    reject ⟨landmark.position, .unknownLandmark name landmark.text,
      some s!"'{name}' has: {available}"⟩

def coordinate (p : Point Float) (axis : Token) : Act Float :=
  match Description.coordinate p axis with
  | .ok x => return x
  | .error r => reject r

/-- What `operands` reads behind an operator, all of it in parentheses. -/
def parenthesized (operands : Token → Act β) : Act β := do
  let _ ← expectKind .openParen
  let operator ← expectKind .operator
  let b ← operands operator
  let _ ← expectKind .closeParen
  return b

/-! ### Numbers and points -/

mutual

def number : Nat → Act Float
  | 0 => stop (.halted .outOfSteps)
  | steps + 1 => do
    let t ← peek
    if t.kind = .number then
      let _ ← advance
      match Literal.read? t.text.toList with
      | some x => return x
      | none => reject ⟨t.position, .expected "a number" t.text, none⟩
    else if t.kind.startsPoint then
      let p ← point steps
      let _ ← expectKind .dot
      let axis ← expect .name "a coordinate"
      coordinate p axis
    else unexpected "a number"

def point : Nat → Act (Point Float)
  | 0 => stop (.halted .outOfSteps)
  | steps + 1 => do
    let t ← peek
    match t.kind with
    | .openBrace =>
      let _ ← advance
      let x ← number steps
      let y ← number steps
      let _ ← expectKind .closeBrace
      return ⟨x, y⟩
    | .name => namedPoint
    | .openParen => parenthesized fun operator => operation operator steps
    | _ => unexpected "a point"

def operation (operator : Token) : Nat → Act (Point Float)
  | 0 => stop (.halted .outOfSteps)
  | steps + 1 =>
    if operator.text = "+" then do
      let (first, others) ← points steps
      return others.foldl (· + ·) first
    else if operator.text = "-" then do
      let (first, others) ← points steps
      return others.foldl (· - ·) first
    else if operator.text = "*" then do
      let p ← point steps
      let k ← number steps
      return p.scale k
    else if operator.text = "/" then do
      let p ← point steps
      let k ← number steps
      if k == 0.0 then reject ⟨operator.position, .divisionByZero, none⟩
      else return p.divide k
    else reject ⟨operator.position, .expected "an operator" operator.text, none⟩

def points : Nat → Act (Point Float × List (Point Float))
  | 0 => stop (.halted .outOfSteps)
  | steps + 1 => do
    let p ← point steps
    let t ← peek
    if t.kind.startsPoint then
      let (q, more) ← points steps
      return (p, q :: more)
    else return (p, [])

end

def pointExpression (steps : Nat) : Act (Point Float) :=
  parenthesized fun operator => operation operator steps

def positive (quantity : Quantity) (steps : Nat) : Act Float := do
  let t ← peek
  let x ← number steps
  if x ≤ 0.0 then reject ⟨t.position, .outOfRange quantity .positive x, none⟩
  else return x

def channel (steps : Nat) : Act Float := do
  let t ← peek
  let x ← number steps
  if !Color.isChannel x then
    reject ⟨t.position, .outOfRange .colorChannel .unitInterval x, none⟩
  else return x

def color (steps : Nat) : Act Color := do
  let t ← peek
  match t.kind with
  | .openBrace =>
    let _ ← advance
    let red ← channel steps
    let green ← channel steps
    let blue ← channel steps
    let _ ← expectKind .closeBrace
    return .ofChannels red green blue
  | .name =>
    let _ ← advance
    let s ← currentScene
    match s.color? t.text with
    | some value => return value
    | none =>
      reject ⟨t.position, .undefinedColor t.text, (s.colors.suggest? t.text).map suggestion⟩
  | _ => unexpected "a color"

/-! ### Forms -/

def references : Nat → Act (List Nat)
  | 0 => stop (.halted .outOfSteps)
  | steps + 1 => do
    let id ← shapeReference
    let t ← peek
    if t.kind = .name then
      let more ← references steps
      return id :: more
    else return [id]

def circle (steps : Nat) : Act (Form Float) := do
  let center ← point steps
  let radius ← positive .radius steps
  return .circle center radius

def ellipse (steps : Nat) : Act (Form Float) := do
  let center ← point steps
  let major ← positive .semiMajorAxis steps
  let t ← peek
  let minor ← positive .semiMinorAxis steps
  if major < minor then
    reject ⟨t.position, .outOfRange .semiMinorAxis .atMostSemiMajorAxis minor, none⟩
  else return .ellipse center major minor

def rectangle (steps : Nat) : Act (Form Float) := do
  let center ← point steps
  let width ← positive .width steps
  let height ← positive .height steps
  return .rectangle center width height

def triangle (steps : Nat) : Act (Form Float) := do
  let v0 ← point steps
  let v1 ← point steps
  let v2 ← point steps
  return .triangle v0 v1 v2

def shifted (steps : Nat) : Act (Form Float) := do
  let offset ← point steps
  let target ← shapeReference
  return .shifted offset target

def rotated (steps : Nat) : Act (Form Float) := do
  let degrees ← number steps
  let pivot ← point steps
  let target ← shapeReference
  return .rotated degrees pivot target

def union (steps : Nat) : Act (Form Float) := do
  let _ ← expectKind .openBrace
  let members ← references steps
  let _ ← expectKind .closeBrace
  return .union members

def difference (_steps : Nat) : Act (Form Float) := do
  let base ← shapeReference
  let subtrahend ← shapeReference
  return .difference base subtrahend

/-! ### Statements -/

/-- Adds a shape to the scene. The scene that this leaves behind stays even if the name is taken. -/
def declare (name : Token) (form : Form Float) : Act Unit := do
  let s ← currentScene
  let outcome := s.addShape name.text form name.position
  putScene outcome.scene
  match outcome.result with
  | .ok _ => return ()
  | .error first =>
    stop (.takenAfterBody ⟨name.position, .duplicateShape name.text first, none⟩)

/-- Adds a colour to the scene in the same way. -/
def declareColor (name : Token) (value : Color) : Act Unit := do
  let s ← currentScene
  let outcome := s.addColor name.text value name.position
  putScene outcome.scene
  match outcome.result with
  | .ok _ => return ()
  | .error first =>
    stop (.takenAfterBody ⟨name.position, .duplicateColor name.text first, none⟩)

def shapeDeclaration (body : Nat → Act (Form Float)) (steps : Nat) : Act Unit := do
  let name ← newShapeName
  let form ← body steps
  declare name form

def colorDeclaration (steps : Nat) : Act Unit := do
  let name ← newColorName
  let value ← color steps
  declareColor name value

def fill (steps : Nat) : Act Unit := do
  let target ← shapeReference
  let value ← color steps
  let s ← currentScene
  putScene (s.fill target value)

def body : Keyword → Nat → Act Unit
  | .circle => shapeDeclaration circle
  | .ellipse => shapeDeclaration ellipse
  | .rectangle => shapeDeclaration rectangle
  | .triangle => shapeDeclaration triangle
  | .shift => shapeDeclaration shifted
  | .rotate => shapeDeclaration rotated
  | .union => shapeDeclaration union
  | .difference => shapeDeclaration difference
  | .color => colorDeclaration
  | .fill => fill

def statement [Keyword.Order] (steps : Nat) : Act Unit := do
  let t ← advance
  if t.kind ≠ .name then reject ⟨t.position, .invalidKeyword t.quoted, none⟩
  else
    match Keyword.ofText? t.text with
    | none =>
      reject ⟨t.position, .unknownKeyword t.text, (Keyword.suggest? t.text).map suggestion⟩
    | some keyword => body keyword steps

/-! ### Descriptions -/

def dimension (quantity : Quantity) (steps : Nat) : Act Nat := do
  let t ← peek
  let x ← number steps
  if x < 0.0 || !Binary64.isWhole x then
    reject ⟨t.position, .outOfRange quantity .nonNegativeInteger x, none⟩
  else if 18446744073709551616.0 ≤ x then
    reject ⟨t.position, .outOfRange quantity .addressable x, none⟩
  else return Binary64.toIndex x

/-- Reads the size of the canvas and begins a scene on it. -/
def size (steps : Nat) : Act Unit := do
  let t ← peek
  if t.kind = .name ∧ t.text = sizeKeyword then
    let _ ← advance
    let width ← dimension .width steps
    let height ← dimension .height steps
    if Word.maxBytes < width * height * 3 then
      reject ⟨t.position,
        .outOfRange .canvas .allocatable (Float.ofNat width * Float.ofNat height), none⟩
    else putScene (.blank width height)
  else reject ⟨t.position, .missingSize t.quoted, none⟩

/-- The loop over the statements, which ends in front of a mark for the end of the file. -/
def statements [Keyword.Order] : Nat → Act Unit
  | 0 => stop (.halted .outOfSteps)
  | steps + 1 => do
    let t ← peek
    if t.isEnd then return ()
    else
      statement steps
      statements steps

def scene [Keyword.Order] (steps : Nat) : Act Unit := do
  size steps
  statements steps

/-- What reading comes to: the scene that is there at the end, or the reason to stop. -/
def ending : Except Stop Unit × State → Except Stop Scene
  | (.ok _, state) => .ok state.scene
  | (.error e, _) => .error e

/-- Reads a list of tokens from its beginning, in at most so many steps. -/
def run [Keyword.Order] (steps : Nat) (tokens : List Token) : Except Stop Scene :=
  ending (scene steps (Indexed.closed tokens).toArray ⟨0, .blank 0 0⟩)

end Stateful

end Easel
