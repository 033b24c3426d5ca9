import Easel.Number.Word

/-! Numbers read from text. A number is an optional sign and then a name for infinity or NaN, or
decimal digits with at most one point and an optional exponent. At least one digit stands before
the exponent, which has digits of its own. `Literal.read?` gives the nearest double. -/

namespace Easel.Literal

/-- Whether a character is one of the ten decimal digits of ASCII. -/
def isDigit (c : Char) : Bool := '0' ≤ c ∧ c ≤ '9'

def value (digits : List Char) : Nat :=
  digits.foldl (fun n c => 10 * n + (c.toNat - '0'.toNat)) 0

/-- The optional sign in front: whether it is a minus, and what follows it. -/
def sign : List Char → Bool × List Char
  | '-' :: rest => (true, rest)
  | '+' :: rest => (false, rest)
  | rest => (false, rest)

/-- The exponent after the digits, where an empty text stands for zero. -/
def exponent? : List Char → Option Int
  | [] => some 0
  | e :: rest =>
    if e = 'e' ∨ e = 'E' then
      let (negative, digits) := sign rest
      if digits.isEmpty ∨ !digits.all isDigit then none
      else some (if negative then -(value digits : Int) else value digits)
    else none

/-- The double nearest to `coefficient * 10 ^ exponent`. Beyond `10 ^ 400` every coefficient
overflows, and four hundred places below its own length it vanishes, so the exponent is brought
between those bounds first. -/
def nearest (coefficient : Nat) (exponent : Int) : Float :=
  if coefficient = 0 then 0.0
  else
    match exponent with
    | .ofNat e => Float.ofScientific coefficient false (min e 400)
    | .negSucc e => Float.ofScientific coefficient true (min (e + 1) (coefficient.log2 + 400))

/-- The digits before the point, those after it, and what follows them. -/
def mantissa (text : List Char) : List Char × List Char × List Char :=
  let whole := text.takeWhile isDigit
  match text.dropWhile isDigit with
  | '.' :: rest => (whole, rest.takeWhile isDigit, rest.dropWhile isDigit)
  | rest => (whole, [], rest)

/-- The magnitude that an unsigned number spells in digits. -/
def magnitude? (text : List Char) : Option Float :=
  match mantissa text with
  | (whole, fraction, rest) =>
    if whole.isEmpty ∧ fraction.isEmpty then none
    else
      (exponent? rest).map fun e => nearest (value (whole ++ fraction)) (e - fraction.length)

/-- The names of the numbers that have no digits, in any mix of upper and lower case. -/
def named? (text : List Char) : Option Float :=
  let lower := text.map Char.toLower
  if lower = ['n', 'a', 'n'] then some (0.0 / 0.0)
  else if lower = ['i', 'n', 'f'] ∨ lower = ['i', 'n', 'f', 'i', 'n', 'i', 't', 'y'] then
    some (1.0 / 0.0)
  else none

/-- The double that a text spells, if it spells a number. -/
def read? (text : List Char) : Option Float :=
  let (negative, unsigned) := sign text
  let magnitude :=
    match named? unsigned with
    | some x => some x
    | none => magnitude? unsigned
  magnitude.map fun x => if negative then -x else x

/-- The natural number that a text spells in digits after an optional plus, if a word holds it. -/
def natural? (text : List Char) : Option Nat :=
  let digits :=
    match text with
    | '+' :: rest => rest
    | rest => rest
  if digits.isEmpty ∨ !digits.all isDigit then none
  else if value digits < Word.size then some (value digits) else none

end Easel.Literal
