import Easel.Number.Decimal
import Easel.Plane.Scalar

/-! Points of the plane, which are also its vectors. The second coordinate grows upwards. -/

namespace Easel

/-- A point, given by its coordinates. -/
structure Point (α : Type) where
  x : α
  y : α
  deriving DecidableEq, Repr

namespace Point

variable {α : Type} [Scalar α]

def origin : Point α := ⟨Scalar.zero, Scalar.zero⟩

instance : Add (Point α) := ⟨fun p q => ⟨p.x + q.x, p.y + q.y⟩⟩
instance : Sub (Point α) := ⟨fun p q => ⟨p.x - q.x, p.y - q.y⟩⟩
instance : Neg (Point α) := ⟨fun p => ⟨-p.x, -p.y⟩⟩

def scale (p : Point α) (k : α) : Point α := ⟨p.x * k, p.y * k⟩

def divide (p : Point α) (k : α) : Point α := ⟨p.x / k, p.y / k⟩

def shift (p offset : Point α) : Point α := p + offset

/-- The centre of the pixel in column `x` and row `y`. -/
def pixelCenter (x y : Nat) : Point α := ⟨Scalar.nat x + Scalar.half, Scalar.nat y + Scalar.half⟩

/-- The point turned counter-clockwise around a pivot. -/
def rotate (p pivot : Point α) (degrees : α) : Point α :=
  let sin := Scalar.sin degrees
  let cos := Scalar.cos degrees
  let d := p - pivot
  ⟨d.x * cos - d.y * sin + pivot.x, d.x * sin + d.y * cos + pivot.y⟩

end Point

/-- Whether two points have equal coordinates, where zeros of both signs are equal and NaN is not
equal to itself. -/
def Point.agrees (p q : Point Float) : Bool := p.x == q.x && p.y == q.y

def Point.text (p : Point Float) : String :=
  "\x7b" ++ Binary64.text p.x ++ " " ++ Binary64.text p.y ++ "\x7d"

end Easel
