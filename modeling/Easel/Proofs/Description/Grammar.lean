import Easel.Description.Basic

/-! The grammar of descriptions. A phrase relates the tokens that start with it to those that follow
it, and names what it denotes in a scene. Its side conditions are a part of it: names are looked up
in the scene, and measures lie in their ranges.

    scene  := "size" number number statement*
    number := literal | point "." ("x" | "y")
    point  := "{" number number "}" | name "." landmark | "(" operator operation ")"

The statements are those of the keywords, and each of them is read in the scene that the ones before
it have made. -/

namespace Easel

/-- The measures of a form. -/
def Form.measures {α : Type} : Form α → List α
  | circle _ radius => [radius]
  | ellipse _ major minor => [major, minor]
  | rectangle _ width height => [width, height]
  | _ => []

namespace Description

mutual

/-- A number: a literal, or a coordinate of a point. -/
inductive IsNumber (s : Scene) : List Token → Float → List Token → Prop
  | literal {t : Token} {rest : List Token} {x : Float} (hkind : t.kind = .number)
      (hread : Literal.read? t.text.toList = some x) : IsNumber s (t :: rest) x rest
  | coordinate {ts rest : List Token} {p : Point Float} {dot axis : Token} {x : Float}
      (hpoint : IsPoint s ts p (dot :: axis :: rest)) (hdot : dot.kind = .dot)
      (haxis : axis.kind = .name)
      (hx : axis.text = "x" ∧ x = p.x ∨ axis.text = "y" ∧ x = p.y) : IsNumber s ts x rest

/-- A point: two coordinates, a landmark of a declared shape, or an operation in parentheses. -/
inductive IsPoint (s : Scene) : List Token → Point Float → List Token → Prop
  | pair {opening closing : Token} {ts us rest : List Token} {x y : Float}
      (hopen : opening.kind = .openBrace) (hx : IsNumber s ts x us)
      (hy : IsNumber s us y (closing :: rest)) (hclose : closing.kind = .closeBrace) :
      IsPoint s (opening :: ts) ⟨x, y⟩ rest
  | landmark {shape dot mark : Token} {rest : List Token} {id : Nat} {p : Point Float}
      (hshape : shape.kind = .name) (hid : s.shape? shape.text = some id) (hdot : dot.kind = .dot)
      (hmark : mark.kind = .name) (hpoint : s.drawing.landmark? id mark.text = some p) :
      IsPoint s (shape :: dot :: mark :: rest) p rest
  | expression {opening operator closing : Token} {ts rest : List Token} {p : Point Float}
      (hopen : opening.kind = .openParen) (hoperator : operator.kind = .operator)
      (hoperation : IsOperation s operator ts p (closing :: rest))
      (hclose : closing.kind = .closeParen) : IsPoint s (opening :: operator :: ts) p rest

/-- The operands of an operator: points to add up or to subtract from the first, or a point and a
factor or divisor, which is not zero. -/
inductive IsOperation (s : Scene) : Token → List Token → Point Float → List Token → Prop
  | sum {operator : Token} {ts rest : List Token} {p : Point Float} {ps : List (Point Float)}
      (htext : operator.text = "+") (hpoints : ArePoints s ts p ps rest) :
      IsOperation s operator ts (ps.foldl (· + ·) p) rest
  | difference {operator : Token} {ts rest : List Token} {p : Point Float} {ps : List (Point Float)}
      (htext : operator.text = "-") (hpoints : ArePoints s ts p ps rest) :
      IsOperation s operator ts (ps.foldl (· - ·) p) rest
  | multiple {operator : Token} {ts us rest : List Token} {p : Point Float} {k : Float}
      (htext : operator.text = "*") (hpoint : IsPoint s ts p us) (hfactor : IsNumber s us k rest) :
      IsOperation s operator ts (p.scale k) rest
  | quotient {operator : Token} {ts us rest : List Token} {p : Point Float} {k : Float}
      (htext : operator.text = "/") (hpoint : IsPoint s ts p us) (hdivisor : IsNumber s us k rest)
      (hzero : ¬(k == 0.0) = true) : IsOperation s operator ts (p.divide k) rest

/-- A point and any number of further points. -/
inductive ArePoints (s : Scene) :
    List Token → Point Float → List (Point Float) → List Token → Prop
  | last {ts rest : List Token} {p : Point Float} (hpoint : IsPoint s ts p rest) :
      ArePoints s ts p [] rest
  | more {ts us rest : List Token} {p q : Point Float} {qs : List (Point Float)}
      (hpoint : IsPoint s ts p us) (hmore : ArePoints s us q qs rest) :
      ArePoints s ts p (q :: qs) rest

end

/-- A channel lies between zero and one. -/
def IsChannel (s : Scene) (ts : List Token) (x : Float) (rest : List Token) : Prop :=
  IsNumber s ts x rest ∧ 0.0 ≤ x ∧ x ≤ 1.0

/-- A colour: three channels in braces, or the name of a declared colour. -/
inductive IsColor (s : Scene) : List Token → Color → List Token → Prop
  | channels {opening closing : Token} {ts us vs rest : List Token} {red green blue : Float}
      (hopen : opening.kind = .openBrace) (hred : IsChannel s ts red us)
      (hgreen : IsChannel s us green vs) (hblue : IsChannel s vs blue (closing :: rest))
      (hclose : closing.kind = .closeBrace) :
      IsColor s (opening :: ts) (.ofChannels red green blue) rest
  | named {name : Token} {rest : List Token} {value : Color} (hname : name.kind = .name)
      (hvalue : s.color? name.text = some value) : IsColor s (name :: rest) value rest

/-- The name of a declared shape. -/
inductive IsShape (s : Scene) : List Token → Nat → List Token → Prop
  | named {name : Token} {rest : List Token} {id : Nat} (hname : name.kind = .name)
      (hid : s.shape? name.text = some id) : IsShape s (name :: rest) id rest

/-- The names of one or more declared shapes. -/
inductive AreShapes (s : Scene) : List Token → List Nat → List Token → Prop
  | last {ts rest : List Token} {id : Nat} (hshape : IsShape s ts id rest) :
      AreShapes s ts [id] rest
  | more {ts us rest : List Token} {id : Nat} {ids : List Nat} (hshape : IsShape s ts id us)
      (hmore : AreShapes s us ids rest) : AreShapes s ts (id :: ids) rest

/-- What follows the keyword and the name in the declaration of a shape. -/
inductive IsForm (s : Scene) : Keyword → List Token → Form Float → List Token → Prop
  | circle {ts us rest : List Token} {center : Point Float} {radius : Float}
      (hcenter : IsPoint s ts center us) (hradius : IsNumber s us radius rest) :
      IsForm s .circle ts (.circle center radius) rest
  | ellipse {ts us vs rest : List Token} {center : Point Float} {major minor : Float}
      (hcenter : IsPoint s ts center us) (hmajor : IsNumber s us major vs)
      (hminor : IsNumber s vs minor rest) :
      IsForm s .ellipse ts (.ellipse center major minor) rest
  | rectangle {ts us vs rest : List Token} {center : Point Float} {width height : Float}
      (hcenter : IsPoint s ts center us) (hwidth : IsNumber s us width vs)
      (hheight : IsNumber s vs height rest) :
      IsForm s .rectangle ts (.rectangle center width height) rest
  | triangle {ts us vs rest : List Token} {v0 v1 v2 : Point Float} (h0 : IsPoint s ts v0 us)
      (h1 : IsPoint s us v1 vs) (h2 : IsPoint s vs v2 rest) :
      IsForm s .triangle ts (.triangle v0 v1 v2) rest
  | shift {ts us rest : List Token} {offset : Point Float} {target : Nat}
      (hoffset : IsPoint s ts offset us) (htarget : IsShape s us target rest) :
      IsForm s .shift ts (.shifted offset target) rest
  | rotate {ts us vs rest : List Token} {degrees : Float} {pivot : Point Float} {target : Nat}
      (hdegrees : IsNumber s ts degrees us) (hpivot : IsPoint s us pivot vs)
      (htarget : IsShape s vs target rest) :
      IsForm s .rotate ts (.rotated degrees pivot target) rest
  | union {opening closing : Token} {ts rest : List Token} {members : List Nat}
      (hopen : opening.kind = .openBrace) (hmembers : AreShapes s ts members (closing :: rest))
      (hclose : closing.kind = .closeBrace) :
      IsForm s .union (opening :: ts) (.union members) rest
  | difference {ts us rest : List Token} {base subtrahend : Nat} (hbase : IsShape s ts base us)
      (hsubtrahend : IsShape s us subtrahend rest) :
      IsForm s .difference ts (.difference base subtrahend) rest

/-- What is asked of the measures of a shape: of each of them, and of the two axes of an ellipse. -/
structure Limits where
  measure (x : Float) : Prop
  axes (major minor : Float) : Prop

/-- Measures are greater than zero, and the second axis is not the longer one. -/
def Limits.stated : Limits := ⟨fun x => 0.0 < x, fun major minor => minor ≤ major⟩

/-- The limits that are kept in reading. A NaN, which no comparison holds of, gets past them. -/
def Limits.kept : Limits :=
  ⟨fun x => 0.0 < x ∨ x.isNaN, fun major minor => minor ≤ major ∨ major.isNaN ∨ minor.isNaN⟩

/-- The limits hold of the measures of a form. -/
def Limits.Admit (l : Limits) : Form Float → Prop
  | .circle _ radius => l.measure radius
  | .ellipse _ major minor => l.measure major ∧ l.measure minor ∧ l.axes major minor
  | .rectangle _ width height => l.measure width ∧ l.measure height
  | _ => True

/-- A statement: a shape or a colour under a new name, or the filling of a declared shape. -/
inductive IsStatement (l : Limits) (s : Scene) : List Token → Statement → List Token → Prop
  | shape {keyword name : Token} {k : Keyword} {ts rest : List Token} {form : Form Float}
      (hkeyword : keyword.kind = .name) (htext : keyword.text = k.text) (hname : name.kind = .name)
      (hfresh : s.shape? name.text = none) (hform : IsForm s k ts form rest)
      (hrange : l.Admit form) :
      IsStatement l s (keyword :: name :: ts) (.shape name.text name.position form) rest
  | color {keyword name : Token} {ts rest : List Token} {value : Color}
      (hkeyword : keyword.kind = .name) (htext : keyword.text = Keyword.color.text)
      (hname : name.kind = .name) (hfresh : s.color? name.text = none)
      (hvalue : IsColor s ts value rest) :
      IsStatement l s (keyword :: name :: ts) (.color name.text name.position value) rest
  | fill {keyword : Token} {ts us rest : List Token} {target : Nat} {value : Color}
      (hkeyword : keyword.kind = .name) (htext : keyword.text = Keyword.fill.text)
      (htarget : IsShape s ts target us) (hvalue : IsColor s us value rest) :
      IsStatement l s (keyword :: ts) (.fill target value) rest

/-- A width or height: a whole number that is not negative and fits 64 bits. -/
inductive IsDimension (s : Scene) : List Token → Nat → List Token → Prop
  | whole {ts rest : List Token} {x : Float} (hx : IsNumber s ts x rest) (hsign : 0.0 ≤ x)
      (hwhole : Binary64.isWhole x = true) (hfits : x < 18446744073709551616.0) :
      IsDimension s ts (Binary64.toIndex x) rest

/-- The size of the canvas, whose pixels fit in memory at three bytes each. -/
inductive IsCanvas (s : Scene) : List Token → Nat × Nat → List Token → Prop
  | size {keyword : Token} {ts us rest : List Token} {width height : Nat}
      (hkeyword : keyword.kind = .name) (htext : keyword.text = sizeKeyword)
      (hwidth : IsDimension s ts width us) (hheight : IsDimension s us height rest)
      (hfits : width * height * 3 ≤ Word.maxBytes) :
      IsCanvas s (keyword :: ts) (width, height) rest

end Description

end Easel
