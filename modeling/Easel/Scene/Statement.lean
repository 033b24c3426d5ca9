import Easel.Diagnostic.Violation
import Easel.Scene.Basic

/-! What a statement of a description does to a scene, after all names and numbers in it have been
worked out. Each statement adds one entry to the shapes, the colours or the fills. -/

namespace Easel

/-- A statement whose names are resolved and whose numbers are computed. -/
inductive Statement where
  | shape (name : String) (position : Position) (form : Form Float)
  | color (name : String) (position : Position) (value : Color)
  | fill (target : Nat) (color : Color)
  deriving DecidableEq, Repr

/-- A description that was given up: the place, the reason and advice. -/
structure Rejection where
  position : Position
  cause : Violation
  help : Option String := none
  deriving DecidableEq

/-- Carries out a statement. A name that is taken already is refused. -/
def Scene.apply (s : Scene) : Statement → Except Rejection Scene
  | .shape name position form =>
    match s.declareShape name form position with
    | .ok (_, next) => .ok next
    | .error first => .error ⟨position, .duplicateShape name first, none⟩
  | .color name position value =>
    match s.declareColor name value position with
    | .ok next => .ok next
    | .error first => .error ⟨position, .duplicateColor name first, none⟩
  | .fill target color => .ok (s.fill target color)

end Easel
