import Easel.Drawing.Geometry
import Easel.Drawing.Landmark
import Easel.Scene.Declarations

/-! Scenes: a canvas, the shapes and colours that are declared for it, and the shapes to fill. -/

namespace Easel

/-- A scene. `shapeNames` leads from a name to the place of the shape in the drawing, and `fills`
lists the places of the filled shapes in the order of the statements that fill them. -/
structure Scene where
  width : Nat
  height : Nat
  drawing : Drawing Float
  shapeNames : Declarations Nat
  colors : Declarations Color
  fills : Array Nat
  deriving DecidableEq, Repr

/-- What an operation that a taken name stops comes to: its result or the place where the name was
declared, and in both cases the scene that it leaves behind. -/
structure Outcome (β : Type) where
  result : Except Position β
  scene : Scene

/-- How many things of each kind a scene has. -/
structure Statistics where
  shapes : Nat
  colors : Nat
  fills : Nat
  deriving DecidableEq, Repr

def Statistics.lines (s : Statistics) : List String :=
  [s!"Number of shapes : {s.shapes}", s!"Number of colors : {s.colors}",
    s!"Number of fills : {s.fills}"]

/-- The counts as text. The last line is not ended. -/
def Statistics.text (s : Statistics) : String := "\n".intercalate s.lines

namespace Scene

def blank (width height : Nat) : Scene := ⟨width, height, .empty, .empty, .empty, #[]⟩

/-- Adds a shape under a new name and gives its place. The shape gets its place in the drawing
before its name is declared for that place. -/
def addShape (s : Scene) (name : String) (form : Form Float) (position : Position) : Outcome Nat :=
  match s.shapeNames.position? name with
  | some first => ⟨.error first, s⟩
  | none =>
    let id := s.drawing.size
    let drawn : Scene := { s with drawing := s.drawing.push name form }
    match drawn.shapeNames.declare name id position with
    | .error first => ⟨.error first, drawn⟩
    | .ok shapeNames => ⟨.ok id, { drawn with shapeNames }⟩

/-- Adds a colour under a new name. -/
def addColor (s : Scene) (name : String) (color : Color) (position : Position) : Outcome Unit :=
  match s.colors.declare name color position with
  | .error first => ⟨.error first, s⟩
  | .ok colors => ⟨.ok (), { s with colors }⟩

/-- The place of a shape that is added under a new name and the scene with it, or where the name was
declared. -/
def declareShape (s : Scene) (name : String) (form : Form Float) (position : Position) :
    Except Position (Nat × Scene) :=
  let outcome := s.addShape name form position
  outcome.result.map fun id => (id, outcome.scene)

/-- The scene with one more colour under a new name, or where the name was declared. -/
def declareColor (s : Scene) (name : String) (color : Color) (position : Position) :
    Except Position Scene :=
  let outcome := s.addColor name color position
  outcome.result.map fun _ => outcome.scene

def shape? (s : Scene) (name : String) : Option Nat := s.shapeNames.get? name

def color? (s : Scene) (name : String) : Option Color := s.colors.get? name

/-- Appends a shape to the shapes to fill without giving it a colour. -/
def list (s : Scene) (id : Nat) : Scene := { s with fills := s.fills.push id }

/-- Fills a shape. One that is filled again keeps its first turn and takes the new colour. -/
def fill (s : Scene) (id : Nat) (color : Color) : Scene :=
  { s with drawing := s.drawing.setFill id color, fills := s.fills.push id }

def statistics (s : Scene) : Statistics := ⟨s.drawing.size, s.colors.size, s.fills.size⟩

end Scene

end Easel
