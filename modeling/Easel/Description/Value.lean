import Easel.Description.Reading
import Easel.Number.Literal

/-! Numbers, points and colours in a description.

    number := literal | point "." ("x" | "y")
    point  := "{" number number "}" | name "." landmark | "(" operation ")"
    operation := ("+" | "-") point point* | ("*" | "/") point number
    color  := "{" number number number "}" | name

A number and a point can start with the same tokens, so reading a number may read a point from the
same place, but not the other way around. -/

namespace Easel.Description

def namedPoint (c : Context) (ts : List Token) : Except Rejection (Reading ts (Point Float)) := do
  let ⟨id, r1, h1⟩ ← shapeReference c ts
  let ⟨_, r2, h2⟩ ← expectKind c .dot r1
  let ⟨landmark, r3, h3⟩ ← expect c .name "a point name" r2
  match c.scene.drawing.landmark? id landmark.text with
  | some p => return ⟨p, r3, by omega⟩
  | none =>
    let name := c.scene.drawing.nameOf id
    let available := ", ".intercalate (c.scene.drawing.landmarkNames id)
    throw ⟨landmark.position, .unknownLandmark name landmark.text,
      some s!"'{name}' has: {available}"⟩

def coordinate (p : Point Float) (axis : Token) : Except Rejection Float :=
  if axis.text = "x" then .ok p.x
  else if axis.text = "y" then .ok p.y
  else .error ⟨axis.position, .invalidCoordinate axis.text, none⟩

mutual

def number (c : Context) : (ts : List Token) → Except Rejection (Reading ts Float)
  | [] => .error (c.unexpected "a number" [])
  | t :: rest =>
    if t.kind = .number then
      match Literal.read? t.text.toList with
      | some x => .ok ⟨x, rest, by simp⟩
      | none => .error ⟨t.position, .expected "a number" t.text, none⟩
    else if t.kind.startsPoint then do
      let ⟨p, r1, h1⟩ ← point c (t :: rest)
      let ⟨_, r2, h2⟩ ← expectKind c .dot r1
      let ⟨axis, r3, h3⟩ ← expect c .name "a coordinate" r2
      let x ← coordinate p axis
      return ⟨x, r3, by omega⟩
    else .error (c.unexpected "a number" (t :: rest))
termination_by ts => 2 * ts.length + 1

def point (c : Context) : (ts : List Token) → Except Rejection (Reading ts (Point Float))
  | [] => .error (c.unexpected "a point" [])
  | t :: rest =>
    match t.kind with
    | .openBrace => do
      let ⟨x, r1, h1⟩ ← number c rest
      let ⟨y, r2, h2⟩ ← number c r1
      let ⟨_, r3, h3⟩ ← expectKind c .closeBrace r2
      return ⟨⟨x, y⟩, r3, by simp only [List.length_cons]; omega⟩
    | .name => namedPoint c (t :: rest)
    | .openParen => do
      let ⟨operator, r1, h1⟩ ← expectKind c .operator rest
      let ⟨p, r2, h2⟩ ← operation c operator r1
      let ⟨_, r3, h3⟩ ← expectKind c .closeParen r2
      return ⟨p, r3, by simp only [List.length_cons]; omega⟩
    | _ => .error (c.unexpected "a point" (t :: rest))
termination_by ts => 2 * ts.length

/-- Reads the operands of an operator and applies it. A sum or difference takes all points that
follow, from left to right. -/
def operation (c : Context) (operator : Token) (ts : List Token) :
    Except Rejection (Reading ts (Point Float)) :=
  if operator.text = "+" then do
    let ⟨(first, others), rest, h⟩ ← points c ts
    return ⟨others.foldl (· + ·) first, rest, h⟩
  else if operator.text = "-" then do
    let ⟨(first, others), rest, h⟩ ← points c ts
    return ⟨others.foldl (· - ·) first, rest, h⟩
  else if operator.text = "*" then do
    let ⟨p, r1, h1⟩ ← point c ts
    let ⟨k, r2, h2⟩ ← number c r1
    return ⟨p.scale k, r2, by omega⟩
  else if operator.text = "/" then do
    let ⟨p, r1, h1⟩ ← point c ts
    let ⟨k, r2, h2⟩ ← number c r1
    if k == 0.0 then throw ⟨operator.position, .divisionByZero, none⟩
    return ⟨p.divide k, r2, by omega⟩
  else .error ⟨operator.position, .expected "an operator" operator.text, none⟩
termination_by 2 * ts.length + 2

def points (c : Context) (ts : List Token) :
    Except Rejection (Reading ts (Point Float × List (Point Float))) := do
  let ⟨p, r1, h1⟩ ← point c ts
  if (r1.head?.map (·.kind.startsPoint)).getD false then
    let ⟨(q, more), r2, h2⟩ ← points c r1
    return ⟨(p, q :: more), r2, by omega⟩
  else return ⟨(p, []), r1, h1⟩
termination_by 2 * ts.length + 1

end

def positive (c : Context) (quantity : Quantity) (ts : List Token) :
    Except Rejection (Reading ts Float) := do
  let ⟨x, rest, h⟩ ← number c ts
  if x ≤ 0.0 then throw ⟨c.position ts, .outOfRange quantity .positive x, none⟩
  return ⟨x, rest, h⟩

/-- Reads a channel of a colour, a number between 0 and 1. -/
def channel (c : Context) (ts : List Token) : Except Rejection (Reading ts Float) := do
  let ⟨x, rest, h⟩ ← number c ts
  if !Color.isChannel x then
    throw ⟨c.position ts, .outOfRange .colorChannel .unitInterval x, none⟩
  return ⟨x, rest, h⟩

/-- Reads a colour: three channels in braces, or the name of a declared colour. -/
def color (c : Context) : (ts : List Token) → Except Rejection (Reading ts Color)
  | [] => .error (c.unexpected "a color" [])
  | t :: rest =>
    match t.kind with
    | .openBrace => do
      let ⟨red, r1, h1⟩ ← channel c rest
      let ⟨green, r2, h2⟩ ← channel c r1
      let ⟨blue, r3, h3⟩ ← channel c r2
      let ⟨_, r4, h4⟩ ← expectKind c .closeBrace r3
      return ⟨.ofChannels red green blue, r4, by simp only [List.length_cons]; omega⟩
    | .name =>
      match c.scene.color? t.text with
      | some value => .ok ⟨value, rest, by simp⟩
      | none =>
        .error ⟨t.position, .undefinedColor t.text,
          (c.scene.colors.suggest? t.text).map suggestion⟩
    | _ => .error (c.unexpected "a color" (t :: rest))

end Easel.Description
