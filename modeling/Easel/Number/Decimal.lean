import Easel.Number.Binary64

/-! Doubles written in decimal: the fewest digits that read back as the same double, always in
positional notation. `Decimal.shortest` finds the digits in exact arithmetic and `Decimal.text`
places them. -/

namespace Easel

/-- The number `coefficient * 10 ^ exponent`. -/
structure Decimal where
  coefficient : Nat
  exponent : Int
  deriving DecidableEq, Repr

namespace Decimal

/-- A positive fraction between the two ends of the interval of numbers that round to it. The ends
belong to the interval if `closed` holds. All four numbers share the denominator. -/
structure Target where
  numerator : Nat
  low : Nat
  high : Nat
  denominator : Nat
  closed : Bool

/-- The numbers that round to the magnitude of `d`: half a unit of the last place on either side,
and a quarter below a power of two, where the doubles underneath lie twice as close. A tie goes to
the even mantissa, so the ends belong to an even one. -/
def Target.ofDyadic (d : Dyadic) : Target :=
  let below := if d.mantissa = Dyadic.binade ∧ d.exponent ≠ -1074 then 1 else 2
  let up := Nat.pow 2 (d.exponent - 2).toNat
  { numerator := 4 * d.mantissa * up
    low := (4 * d.mantissa - below) * up
    high := (4 * d.mantissa + 2) * up
    denominator := Nat.pow 2 (2 - d.exponent).toNat
    closed := d.mantissa % 2 = 0 }

/-- Whether `n * 10 ^ exponent` rounds to the target. -/
def Target.accepts (t : Target) (n : Nat) (exponent : Int) : Bool :=
  let value := n * Nat.pow 10 exponent.toNat * t.denominator
  let scale := Nat.pow 10 (-exponent).toNat
  if t.closed then t.low * scale ≤ value ∧ value ≤ t.high * scale
  else t.low * scale < value ∧ value < t.high * scale

def digitCount (n : Nat) : Nat := (Nat.toDigits 10 n).length

/-- The exponent of the first significant decimal digit of the target. -/
def Target.leadingExponent (t : Target) : Int :=
  if t.denominator ≤ t.numerator then (digitCount (t.numerator / t.denominator) : Int) - 1
  else -(digitCount ((t.denominator - 1) / t.numerator) : Int)

/-- The neighbour of the target among the multiples of `10 ^ exponent` that rounds to it. If both
do, it is the nearer one, and the upper one of two that are equally near. -/
def Target.neighbour? (t : Target) (exponent : Int) : Option Nat :=
  let numerator := t.numerator * Nat.pow 10 (-exponent).toNat
  let unit := t.denominator * Nat.pow 10 exponent.toNat
  let lower := numerator / unit
  match t.accepts lower exponent, t.accepts (lower + 1) exponent with
  | true, true => if 2 * (numerator % unit) < unit then some lower else some (lower + 1)
  | true, false => some lower
  | false, true => some (lower + 1)
  | false, false => none

/-- Tries the grid of `10 ^ exponent` and then up to `more` grids that are ten times finer each. -/
def Target.search (t : Target) (exponent : Int) : Nat → Option Decimal
  | 0 => (t.neighbour? exponent).map (⟨·, exponent⟩)
  | more + 1 =>
    match t.neighbour? exponent with
    | some n => some ⟨n, exponent⟩
    | none => t.search (exponent - 1) more

/-- The decimal with the fewest digits that reads back as the magnitude of `d`, and the nearest to
it of those. Seventeen digits always suffice for a double. -/
def shortest (d : Dyadic) : Decimal :=
  let t := Target.ofDyadic d
  (t.search t.leadingExponent 16).getD ⟨0, 0⟩

/-- Positional notation, without an exponent and without zeros that say nothing: a whole number
has no point, and a fraction has a digit before it. -/
def text (d : Decimal) : String :=
  match d.exponent with
  | .ofNat e => toString (d.coefficient * Nat.pow 10 e)
  | .negSucc e =>
    let places := e + 1
    let whole := d.coefficient / Nat.pow 10 places
    let fraction := Nat.toDigits 10 (d.coefficient % Nat.pow 10 places)
    let padded := List.replicate (places - fraction.length) '0' ++ fraction
    let kept := (padded.reverse.dropWhile (· = '0')).reverse
    if kept.isEmpty then toString whole else toString whole ++ "." ++ String.ofList kept

end Decimal

namespace Binary64

/-- How a double is printed: the shortest digits in positional notation, zero with its sign, and
the names `inf` and `NaN`. -/
def text (x : Float) : String :=
  match Dyadic.ofFloat? x with
  | none => if x == x then (if x < 0.0 then "-inf" else "inf") else "NaN"
  | some d =>
    let magnitude := if d.mantissa = 0 then "0" else (Decimal.shortest d).text
    if d.negative then "-" ++ magnitude else magnitude

end Binary64

end Easel
