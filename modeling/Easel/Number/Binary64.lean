/-! The exact value of a double, and the roundings to whole numbers that are read off it. A finite
double is a whole mantissa scaled by a power of two, so its whole part and its fraction are
questions about natural numbers. -/

namespace Easel

/-- A finite double written exactly: the magnitude is `mantissa * 2 ^ exponent`. -/
structure Dyadic where
  negative : Bool
  mantissa : Nat
  exponent : Int
  deriving DecidableEq, Repr

namespace Dyadic

/-- The number of doubles from a power of two up to the next one: two to the 52nd. -/
def binade : Nat := 4503599627370496

/-- The exact value of a double, or `none` for an infinity or NaN. The sign takes one bit, the
exponent eleven and the fraction fifty-two; a normal number has one more bit that is not stored. -/
def ofFloat? (x : Float) : Option Dyadic :=
  let bits := x.toBits.toNat
  let negative := 2048 * binade ≤ bits
  let scale : Nat := bits / binade % 2048
  let fraction := bits % binade
  if scale = 2047 then none
  else if scale = 0 then some ⟨negative, fraction, -1074⟩
  else some ⟨negative, fraction + binade, (scale : Int) - 1075⟩

/-- The whole part of the magnitude. -/
def whole (d : Dyadic) : Nat :=
  match d.exponent with
  | .ofNat e => d.mantissa * Nat.pow 2 e
  | .negSucc e => d.mantissa / Nat.pow 2 (e + 1)

/-- Whether nothing is left of the magnitude after its whole part is taken away. -/
def isWhole (d : Dyadic) : Bool :=
  match d.exponent with
  | .ofNat _ => true
  | .negSucc e => d.mantissa % Nat.pow 2 (e + 1) = 0

end Dyadic

namespace Binary64

/-- Whether a double is a number other than an infinity. -/
def isFinite (x : Float) : Bool := (Dyadic.ofFloat? x).isSome

/-- Whether a double is a whole number. Infinities and NaN are not. -/
def isWhole (x : Float) : Bool :=
  match Dyadic.ofFloat? x with
  | some d => d.isWhole
  | none => false

/-- The whole number `n` with a sign, where minus zero keeps its sign. -/
def signed (negative : Bool) (n : Nat) : Float :=
  if negative then -(Float.ofNat n) else Float.ofNat n

/-- The greatest whole double that is not above `x`; infinities and NaN stay as they are. A double
with a fraction is below `2 ^ 52`, where every whole number is a double. -/
def floor (x : Float) : Float :=
  match Dyadic.ofFloat? x with
  | none => x
  | some d =>
    if d.isWhole then x
    else if d.negative then signed true (d.whole + 1)
    else signed false d.whole

/-- The least whole double that is not below `x`; infinities and NaN stay as they are. -/
def ceil (x : Float) : Float :=
  match Dyadic.ofFloat? x with
  | none => x
  | some d =>
    if d.isWhole then x
    else if d.negative then signed true d.whole
    else signed false (d.whole + 1)

/-- The whole part of `x` as a machine index: zero for NaN and below zero, and the greatest
64-bit number for what lies above it. -/
def toIndex (x : Float) : Nat := x.toUInt64.toNat

end Binary64

end Easel
