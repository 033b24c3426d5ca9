import Easel.Description.Keyword
import Easel.Description.Value
import Easel.Number.Word

/-! The statements of a description: a size, and then declarations of shapes and colours and fills.

    size  := "size" number number
    circ  := "circ" name point number
    elli  := "elli" name point number number
    rect  := "rect" name point number number
    tri   := "tri" name point point point
    shift := "shift" name point name
    rot   := "rot" name number point name
    union := "union" name "{" name name* "}"
    diff  := "diff" name name name
    color := "color" name color
    fill  := "fill" name color -/

namespace Easel.Description

/-- Reads a width or height: a whole number that is not negative and fits 64 bits. -/
def dimension (c : Context) (quantity : Quantity) (ts : List Token) :
    Except Rejection (Reading ts Nat) := do
  let ⟨x, rest, h⟩ ← number c ts
  if x < 0.0 || !Binary64.isWhole x then
    throw ⟨c.position ts, .outOfRange quantity .nonNegativeInteger x, none⟩
  if 18446744073709551616.0 ≤ x then
    throw ⟨c.position ts, .outOfRange quantity .addressable x, none⟩
  return ⟨Binary64.toIndex x, rest, h⟩

/-- Reads the size of the canvas. Its pixels, at three bytes each, have to fit in memory. -/
def canvas (c : Context) : (ts : List Token) → Except Rejection (Reading ts (Nat × Nat))
  | [] => .error ⟨c.stop, .missingSize (Context.quoted []), none⟩
  | t :: rest =>
    if t.kind = .name ∧ t.text = sizeKeyword then do
      let width ← dimension c .width rest
      let height ← dimension c .height width.rest
      if Word.maxBytes < width.value * height.value * 3 then
        throw ⟨t.position,
          .outOfRange .canvas .allocatable (Float.ofNat width.value * Float.ofNat height.value),
          none⟩
      return ((width.andThen height).giving (width.value, height.value)).after t
    else .error ⟨t.position, .missingSize t.quoted, none⟩

def circle (c : Context) (ts : List Token) : Except Rejection (Reading ts (Form Float)) := do
  let center ← point c ts
  let radius ← positive c .radius center.rest
  return (center.andThen radius).giving (.circle center.value radius.value)

/-- Reads the form of an ellipse. Its second axis is not the longer one. -/
def ellipse (c : Context) (ts : List Token) : Except Rejection (Reading ts (Form Float)) := do
  let center ← point c ts
  let major ← positive c .semiMajorAxis center.rest
  let minor ← positive c .semiMinorAxis major.rest
  if major.value < minor.value then
    throw ⟨c.position major.rest,
      .outOfRange .semiMinorAxis .atMostSemiMajorAxis minor.value, none⟩
  return (center.andThen (major.andThen minor)).giving
    (.ellipse center.value major.value minor.value)

def rectangle (c : Context) (ts : List Token) : Except Rejection (Reading ts (Form Float)) := do
  let center ← point c ts
  let width ← positive c .width center.rest
  let height ← positive c .height width.rest
  return (center.andThen (width.andThen height)).giving
    (.rectangle center.value width.value height.value)

def triangle (c : Context) (ts : List Token) : Except Rejection (Reading ts (Form Float)) := do
  let v0 ← point c ts
  let v1 ← point c v0.rest
  let v2 ← point c v1.rest
  return (v0.andThen (v1.andThen v2)).giving (.triangle v0.value v1.value v2.value)

def shifted (c : Context) (ts : List Token) : Except Rejection (Reading ts (Form Float)) := do
  let offset ← point c ts
  let target ← shapeReference c offset.rest
  return (offset.andThen target).giving (.shifted offset.value target.value)

def rotated (c : Context) (ts : List Token) : Except Rejection (Reading ts (Form Float)) := do
  let degrees ← number c ts
  let pivot ← point c degrees.rest
  let target ← shapeReference c pivot.rest
  return (degrees.andThen (pivot.andThen target)).giving
    (.rotated degrees.value pivot.value target.value)

/-- Reads one reference to a shape and then as many as follow. -/
def references (c : Context) (ts : List Token) : Except Rejection (Reading ts (List Nat)) := do
  let ⟨id, r1, h1⟩ ← shapeReference c ts
  if r1.head?.map (·.kind) = some .name then
    let ⟨more, r2, h2⟩ ← references c r1
    return ⟨id :: more, r2, by omega⟩
  else return ⟨[id], r1, h1⟩
termination_by ts.length

def union (c : Context) (ts : List Token) : Except Rejection (Reading ts (Form Float)) := do
  let opening ← expectKind c .openBrace ts
  let members ← references c opening.rest
  let closing ← expectKind c .closeBrace members.rest
  return (opening.andThen (members.andThen closing)).giving (.union members.value)

def difference (c : Context) (ts : List Token) : Except Rejection (Reading ts (Form Float)) := do
  let base ← shapeReference c ts
  let subtrahend ← shapeReference c base.rest
  return (base.andThen subtrahend).giving (.difference base.value subtrahend.value)

/-- Reads the declaration of a shape whose form `body` reads. -/
def shapeDeclaration (c : Context)
    (body : Context → (ts : List Token) → Except Rejection (Reading ts (Form Float)))
    (ts : List Token) : Except Rejection (Reading ts Statement) := do
  let name ← newShapeName c ts
  let form ← body c name.rest
  return (name.andThen form).giving (.shape name.value.text name.value.position form.value)

def colorDeclaration (c : Context) (ts : List Token) :
    Except Rejection (Reading ts Statement) := do
  let name ← newColorName c ts
  let value ← color c name.rest
  return (name.andThen value).giving (.color name.value.text name.value.position value.value)

def fill (c : Context) (ts : List Token) : Except Rejection (Reading ts Statement) := do
  let target ← shapeReference c ts
  let value ← color c target.rest
  return (target.andThen value).giving (.fill target.value value.value)

def body (c : Context) : Keyword → (ts : List Token) → Except Rejection (Reading ts Statement)
  | .circle => shapeDeclaration c circle
  | .ellipse => shapeDeclaration c ellipse
  | .rectangle => shapeDeclaration c rectangle
  | .triangle => shapeDeclaration c triangle
  | .shift => shapeDeclaration c shifted
  | .rotate => shapeDeclaration c rotated
  | .union => shapeDeclaration c union
  | .difference => shapeDeclaration c difference
  | .color => colorDeclaration c
  | .fill => fill c

/-- Reads a statement that starts with the token `t`. -/
def statement [Keyword.Order] (c : Context) (t : Token) (ts : List Token) :
    Except Rejection (Reading (t :: ts) Statement) :=
  if t.kind ≠ .name then .error ⟨t.position, .invalidKeyword t.quoted, none⟩
  else
    match Keyword.ofText? t.text with
    | none =>
      .error ⟨t.position, .unknownKeyword t.text, (Keyword.suggest? t.text).map suggestion⟩
    | some keyword => return (← body c keyword ts).after t

end Easel.Description
