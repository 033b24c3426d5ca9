import Easel.Number.Binary64

/-! The numbers that the plane is made of. Geometry is written once, over any type with these
operations, and the program runs it over doubles. -/

namespace Easel

/-- Arithmetic, order and the few functions that geometry needs. Angles are in degrees. -/
class Scalar (α : Type) extends Add α, Sub α, Neg α, Mul α, Div α where
  le : α → α → Bool
  lt : α → α → Bool
  nat : Nat → α
  min : α → α → α
  max : α → α → α
  abs : α → α
  sqrt : α → α
  sin : α → α
  cos : α → α
  diagonal : α
  /-- The greatest whole number that is not above a scalar. -/
  floor : α → α
  /-- The least whole number that is not below a scalar. -/
  ceil : α → α
  isFinite : α → Bool
  /-- The whole part of a scalar that is not negative. -/
  toIndex : α → Nat

namespace Scalar

def zero {α : Type} [Scalar α] : α := nat 0

def half {α : Type} [Scalar α] : α := nat 1 / nat 2

def square {α : Type} [Scalar α] (x : α) : α := x * x

end Scalar

namespace Binary64

/-- The lesser of two doubles. A NaN gives way to the other one, and of two equal doubles, such as
zeros of both signs, the second is taken. -/
def min (x y : Float) : Float := if x < y then x else if y == y then y else x

/-- The greater of two doubles. A NaN gives way to the other one, and of two equal doubles, such as
zeros of both signs, the second is taken. -/
def max (x y : Float) : Float := if y < x then x else if y == y then y else x

/-- The radians of an angle in degrees. -/
def radians (degrees : Float) : Float := degrees * (3.14159265358979323846 / 180.0)

end Binary64

instance : Scalar Float where
  le := Float.le
  lt := Float.lt
  nat := Float.ofNat
  min := Binary64.min
  max := Binary64.max
  abs := Float.abs
  sqrt := Float.sqrt
  sin degrees := (Binary64.radians degrees).sin
  cos degrees := (Binary64.radians degrees).cos
  diagonal := 0.707106781186547524400844362104849039
  floor := Binary64.floor
  ceil := Binary64.ceil
  isFinite := Binary64.isFinite
  toIndex := Binary64.toIndex

end Easel
