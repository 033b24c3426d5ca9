import Easel.Text.Similarity

/-! The words that statements start with. -/

namespace Easel.Description

/-- A word that starts a statement. -/
inductive Keyword where
  | circle
  | ellipse
  | rectangle
  | triangle
  | shift
  | rotate
  | union
  | difference
  | color
  | fill
  deriving DecidableEq, Repr

namespace Keyword

def all : List Keyword :=
  [circle, ellipse, rectangle, triangle, shift, rotate, union, difference, color, fill]

def text : Keyword → String
  | circle => "circ"
  | ellipse => "elli"
  | rectangle => "rect"
  | triangle => "tri"
  | shift => "shift"
  | rotate => "rot"
  | union => "union"
  | difference => "diff"
  | color => "color"
  | fill => "fill"

def ofText? (text : String) : Option Keyword := all.find? fun k => k.text == text

/-- The order in which the table of the keywords gives them. It stays the same while the program
runs and may be another one the next time. -/
class Order where
  keywords : List Keyword
  perm : keywords.Perm all

instance : Order := ⟨all, .refl all⟩

/-- The keyword that is probably meant by a word that is none. -/
def suggest? [Order] (text : String) : Option String :=
  Similarity.closest? text (Order.keywords.map Keyword.text)

end Keyword

/-- The word that a description starts with. -/
def sizeKeyword : String := "size"

end Easel.Description
