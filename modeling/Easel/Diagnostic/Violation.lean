import Easel.Number.Decimal
import Easel.Text.Position

/-! The ways in which a sequence of tokens fails to be a scene description, and their wording. -/

namespace Easel

/-- A number that has to lie in a range. -/
inductive Quantity where
  | canvas
  | width
  | height
  | radius
  | semiMajorAxis
  | semiMinorAxis
  | colorChannel
  deriving DecidableEq, Repr

def Quantity.text : Quantity → String
  | canvas => "canvas"
  | width => "width"
  | height => "height"
  | radius => "radius"
  | semiMajorAxis => "semi-major axis"
  | semiMinorAxis => "semi-minor axis"
  | colorChannel => "color channel"

/-- The range that a quantity has to lie in. -/
inductive Requirement where
  | allocatable
  | nonNegativeInteger
  | addressable
  | atMostSemiMajorAxis
  | unitInterval
  | positive
  deriving DecidableEq, Repr

def Requirement.text : Requirement → String
  | allocatable => "small enough to allocate"
  | nonNegativeInteger => "a non-negative integer"
  | addressable => "an addressable size"
  | atMostSemiMajorAxis => "at most the semi-major axis"
  | unitInterval => "between 0 and 1"
  | positive => "greater than 0"

/-- Why a description is rejected. -/
inductive Violation where
  | expected (wanted found : String)
  | missingSize (found : String)
  | invalidKeyword (found : String)
  | unknownKeyword (text : String)
  | duplicateShape (name : String) (first : Position)
  | duplicateColor (name : String) (first : Position)
  | undefinedShape (name : String)
  | undefinedColor (name : String)
  | unknownLandmark (shape point : String)
  | invalidCoordinate (text : String)
  | outOfRange (quantity : Quantity) (requirement : Requirement) (value : Float)
  | divisionByZero
  deriving DecidableEq

def Violation.message : Violation → String
  | expected wanted found => s!"expected {wanted} (got '{found}')."
  | missingSize found => s!"expected 'size' keyword (got '{found}')."
  | invalidKeyword found => s!"invalid keyword format ('{found}')."
  | unknownKeyword text => s!"unknown keyword ('{text}')."
  | duplicateShape name first => s!"shape '{name}' already defined at {first.text}."
  | duplicateColor name first => s!"color '{name}' already defined at {first.text}."
  | undefinedShape name => s!"shape '{name}' doesn't exist."
  | undefinedColor name => s!"color '{name}' doesn't exist."
  | unknownLandmark shape point => s!"point '{point}' doesn't exist on shape '{shape}'."
  | invalidCoordinate text => s!"'{text}' is not a valid coordinate."
  | outOfRange quantity requirement value =>
    s!"{quantity.text} must be {requirement.text} (got {Binary64.text value})."
  | divisionByZero => "division by 0 not allowed."

end Easel
