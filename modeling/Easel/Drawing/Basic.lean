import Easel.Color
import Easel.Plane.Box

/-! Shapes and drawings. A drawing lists its shapes in the order of their declaration, and a shape
that is made from others refers to them by their places in the list. -/

namespace Easel

/-- What a shape is. The targets, members and operands are places in a drawing. -/
inductive Form (α : Type) where
  | circle (center : Point α) (radius : α)
  | ellipse (center : Point α) (semiMajor semiMinor : α)
  | rectangle (center : Point α) (width height : α)
  | triangle (v0 v1 v2 : Point α)
  | shifted (offset : Point α) (target : Nat)
  | rotated (degrees : α) (pivot : Point α) (target : Nat)
  | union (members : List Nat)
  | difference (base subtrahend : Nat)
  deriving DecidableEq, Repr

namespace Form

def keyword {α : Type} : Form α → String
  | circle .. => "circ"
  | ellipse .. => "elli"
  | rectangle .. => "rect"
  | triangle .. => "tri"
  | shifted .. => "shift"
  | rotated .. => "rot"
  | union _ => "union"
  | difference .. => "diff"

/-- The shapes that a form is made from, in order. -/
def references {α : Type} : Form α → List Nat
  | shifted _ target => [target]
  | rotated _ _ target => [target]
  | union members => members
  | difference base subtrahend => [base, subtrahend]
  | _ => []

/-- A form with its measures. Other shapes do not appear in it. -/
def text (f : Form Float) : String :=
  match f with
  | circle center radius => s!"{f.keyword} {center.text} {Binary64.text radius}"
  | ellipse center major minor =>
    s!"{f.keyword} {center.text} {Binary64.text major} {Binary64.text minor}"
  | rectangle center width height =>
    s!"{f.keyword} {center.text} {Binary64.text width} {Binary64.text height}"
  | triangle v0 v1 v2 => s!"{f.keyword} {v0.text} {v1.text} {v2.text}"
  | shifted offset _ => s!"{f.keyword} {offset.text}"
  | rotated degrees pivot _ => s!"{f.keyword} {Binary64.text degrees} {pivot.text}"
  | union members => s!"{f.keyword} of {members.length}"
  | difference .. => f.keyword

end Form

/-- A declared shape, with the colour that fills it if it has one. -/
structure Shape (α : Type) where
  name : String
  form : Form α
  fill : Option Color
  deriving DecidableEq, Repr

/-- How a question about a shape is answered: from the shape, from what is asked, and from the
answers of the shapes that it is made from, which `ask` gets. The monad is that of these answers. -/
structure Rule (α ι β : Type) where
  answer {m : Type → Type} [Monad m] (shape : Shape α) (input : ι) (ask : Nat → ι → m β) : m β

/-- The declared shapes in order. -/
structure Drawing (α : Type) where
  shapes : Array (Shape α)
  deriving DecidableEq, Repr

namespace Drawing

variable {α : Type}

def empty : Drawing α := ⟨#[]⟩

def size (d : Drawing α) : Nat := d.shapes.size

def form? (d : Drawing α) (id : Nat) : Option (Form α) := d.shapes[id]?.map (·.form)

/-- The name of the shape at a place. -/
def nameOf (d : Drawing α) (id : Nat) : String := (d.shapes[id]?.map (·.name)).getD ""

/-- The drawing with one more shape, at the place `d.size`, that is not filled. -/
def push (d : Drawing α) (name : String) (form : Form α) : Drawing α :=
  ⟨d.shapes.push ⟨name, form, none⟩⟩

/-- The drawing with the shape at a place filled with a colour. -/
def setFill (d : Drawing α) (id : Nat) (color : Color) : Drawing α :=
  ⟨d.shapes.modify id fun shape => { shape with fill := some color }⟩

/-- The answer of the shape at a place by a rule. A shape refers to earlier places only, so the
place gets smaller on the way down. Where there is no shape, and where a reference does not lead to
an earlier place, the answer is `nothing`. -/
def consult {ι β : Type} (d : Drawing α) (rule : Rule α ι β) (nothing : β) (id : Nat) (input : ι) :
    β :=
  match d.shapes[id]? with
  | none => nothing
  | some shape =>
    (rule.answer shape input fun target i =>
      pure (if target < id then d.consult rule nothing target i else nothing) : Id β).run
termination_by id

end Drawing

end Easel
