import Easel.Drawing.Basic

/-! Landmarks: the points of a shape that a description can name. -/

namespace Easel

variable {α : Type} [Scalar α]

namespace Landmark

def compassNames : List String := ["c", "n", "ne", "e", "se", "s", "sw", "w", "nw"]

def ellipseNames : List String := compassNames ++ ["f1", "f2"]

/-- The centroid, the corners and the middles of the sides. -/
def triangleNames : List String := ["c", "v0", "v1", "v2", "s01", "s02", "s12"]

/-- The direction of a point of the compass, where the four between the axes are as far out along
each axis as `diagonal` says. -/
def direction? (diagonal : α) : String → Option (Point α)
  | "c" => some ⟨Scalar.zero, Scalar.zero⟩
  | "n" => some ⟨Scalar.zero, Scalar.nat 1⟩
  | "ne" => some ⟨diagonal, diagonal⟩
  | "e" => some ⟨Scalar.nat 1, Scalar.zero⟩
  | "se" => some ⟨diagonal, -diagonal⟩
  | "s" => some ⟨Scalar.zero, -Scalar.nat 1⟩
  | "sw" => some ⟨-diagonal, -diagonal⟩
  | "w" => some ⟨-Scalar.nat 1, Scalar.zero⟩
  | "nw" => some ⟨-diagonal, diagonal⟩
  | _ => none

/-- A point of the compass on an outline that reaches `dx` and `dy` away from its centre. -/
def compass? (center : Point α) (dx dy diagonal : α) (name : String) : Option (Point α) :=
  (direction? diagonal name).map fun k => ⟨center.x + k.x * dx, center.y + k.y * dy⟩

/-- How far the foci of an ellipse are from its centre. -/
def focalDistance (a b : α) : α := Scalar.sqrt (a * a - b * b)

def ellipse? (center : Point α) (a b : α) : String → Option (Point α)
  | "f1" => some ⟨center.x + Scalar.nat 1 * focalDistance a b, center.y⟩
  | "f2" => some ⟨center.x + -Scalar.nat 1 * focalDistance a b, center.y⟩
  | name => compass? center a b Scalar.diagonal name

def triangle? (v0 v1 v2 : Point α) : String → Option (Point α)
  | "c" => some ((v0 + v1 + v2).divide (Scalar.nat 3))
  | "v0" => some v0
  | "v1" => some v1
  | "v2" => some v2
  | "s01" => some ((v0 + v1).divide (Scalar.nat 2))
  | "s02" => some ((v0 + v2).divide (Scalar.nat 2))
  | "s12" => some ((v1 + v2).divide (Scalar.nat 2))
  | _ => none

end Landmark

namespace Rule

/-- The landmark of a shape with a name. Transformed shapes carry the landmarks of their target
along, a union has those of its first member and a difference those of its base. -/
def landmark? : Rule α String (Option (Point α)) where
  answer shape name ask :=
    match shape.form with
    | .circle center radius => return Landmark.compass? center radius radius Scalar.diagonal name
    | .ellipse center a b => return Landmark.ellipse? center a b name
    | .rectangle center width height =>
      return Landmark.compass? center (width / Scalar.nat 2) (height / Scalar.nat 2)
        (Scalar.nat 1) name
    | .triangle v0 v1 v2 => return Landmark.triangle? v0 v1 v2 name
    | .shifted offset target => return (← ask target name).map fun p => p.shift offset
    | .rotated degrees pivot target =>
      return (← ask target name).map fun p => p.rotate pivot degrees
    | .union [] => return none
    | .union (first :: _) => ask first name
    | .difference base _ => ask base name

def landmarkNames : Rule α Unit (List String) where
  answer shape _ ask :=
    match shape.form with
    | .circle .. | .rectangle .. => return Landmark.compassNames
    | .ellipse .. => return Landmark.ellipseNames
    | .triangle .. => return Landmark.triangleNames
    | .shifted _ target | .rotated _ _ target => ask target ()
    | .union [] => return []
    | .union (first :: _) => ask first ()
    | .difference base _ => ask base ()

end Rule

namespace Drawing

/-- The landmark with a name on the shape at a place. -/
def landmark? (d : Drawing α) (id : Nat) (name : String) : Option (Point α) :=
  d.consult .landmark? none id name

/-- The names of the landmarks of the shape at a place. -/
def landmarkNames (d : Drawing α) (id : Nat) : List String := d.consult .landmarkNames [] id ()

end Drawing

end Easel
