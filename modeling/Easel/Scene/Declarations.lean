import Easel.Text.Position
import Easel.Text.Similarity

/-! Declared names. A name is declared once, and the order of the declarations is kept. -/

namespace Easel

/-- A name, what it stands for, and where it was declared. -/
structure Declaration (β : Type) where
  name : String
  value : β
  position : Position
  deriving DecidableEq, Repr

/-- The declarations so far, in order, and an index that leads from each declared name to the place
of its entry. -/
structure Declarations (β : Type) where
  entries : Array (Declaration β)
  index : List (String × Nat)
  deriving DecidableEq, Repr

namespace Declarations

variable {β : Type}

def empty : Declarations β := ⟨#[], []⟩

def find? (t : Declarations β) (name : String) : Option (Declaration β) :=
  (t.index.lookup name).bind fun i => t.entries[i]?

def get? (t : Declarations β) (name : String) : Option β := (t.find? name).map (·.value)

def position? (t : Declarations β) (name : String) : Option Position :=
  (t.find? name).map (·.position)

def size (t : Declarations β) : Nat := t.entries.size

def names (t : Declarations β) : List String := t.entries.toList.map (·.name)

def add (t : Declarations β) (name : String) (value : β) (position : Position) : Declarations β :=
  ⟨t.entries.push ⟨name, value, position⟩, (name, t.size) :: t.index⟩

/-- Declares a name, or says where it was declared before. -/
def declare (t : Declarations β) (name : String) (value : β) (position : Position) :
    Except Position (Declarations β) :=
  match t.find? name with
  | some first => .error first.position
  | none => .ok (t.add name value position)

/-- A declared name that is probably meant by a name that is not declared. -/
def suggest? (t : Declarations β) (name : String) : Option String :=
  Similarity.closest? name t.names

end Declarations

end Easel
