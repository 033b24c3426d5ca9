/-! The limits of a machine that counts with 64 bits. -/

namespace Easel

namespace Word

/-- The number of values of a word: two to the 64th. -/
def size : Nat := 18446744073709551616

/-- The greatest number of bytes in one piece of memory: one less than two to the 63rd. -/
def maxBytes : Nat := 9223372036854775807

end Word

/-- What a machine does with a count that does not fit a word. -/
inductive Overflow where
  | stops
  | wraps
  deriving DecidableEq, Repr

/-- A whole number as a machine counts it, unless it stops. -/
def Overflow.count? (o : Overflow) (n : Int) : Option Nat :=
  if 0 ≤ n ∧ n < Word.size then some n.toNat
  else
    match o with
    | stops => none
    | wraps => some (n % Word.size).toNat

end Easel
