/-! Colours as three bytes. -/

namespace Easel

/-- A colour: how much red, green and blue light it has. -/
structure Color where
  red : UInt8
  green : UInt8
  blue : UInt8
  deriving DecidableEq, Repr, Inhabited

namespace Color

/-- No light at all. -/
def black : Color := ⟨0, 0, 0⟩

/-- The byte nearest to 255 times a channel between 0 and 1, and the even one of two that are
equally near. Doubles from `2 ^ 52` to `2 ^ 53` are the whole numbers, so adding `2 ^ 52` rounds,
and the byte is left in the low bits. -/
def byte (channel : Float) : UInt8 := (channel * 255.0 + 4503599627370496.0).toBits.toUInt8

/-- The colour with the given channels between 0 and 1. -/
def ofChannels (red green blue : Float) : Color := ⟨byte red, byte green, byte blue⟩

def isChannel (value : Float) : Bool := 0.0 ≤ value ∧ value ≤ 1.0

def hexByte (b : UInt8) : String :=
  String.ofList [Nat.digitChar (b.toNat / 16), Nat.digitChar (b.toNat % 16)]

def hex (c : Color) : String := hexByte c.red ++ hexByte c.green ++ hexByte c.blue

end Color

end Easel
