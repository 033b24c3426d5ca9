import Easel.Description.Statement
import Easel.Diagnostic.Basic

/-! Reading a whole description: the canvas, and then one statement after the other, each of which
is carried out before the next one is read. The first fault ends it. -/

namespace Easel.Description

/-- How far reading has come: the scene so far, whether its canvas was read, the statements that
were carried out, and the fault that ended it, if there was one. -/
structure Progress where
  scene : Scene
  hasCanvas : Bool
  statements : List Statement
  rejection : Option Rejection

namespace Progress

def result (p : Progress) : Except Rejection Scene :=
  match p.rejection with
  | none => .ok p.scene
  | some r => .error r

/-- What the journal says about a statement. -/
def statementNote (scene : Scene) : Statement → String
  | .shape name position form => s!"{form.keyword} '{name}' declared at {position.text}"
  | .color name position _ => s!"color '{name}' declared at {position.text}"
  | .fill target _ => s!"fill '{scene.drawing.nameOf target}'"

/-- What the journal says about the reading of a description: its canvas, its statements, and if
it is complete, how many things it declares. -/
def notes (p : Progress) : List String :=
  if p.hasCanvas then
    s!"canvas {p.scene.width}x{p.scene.height}" ::
      p.statements.map (statementNote p.scene) ++
      (if p.rejection.isNone then [", ".intercalate p.scene.statistics.lines] else [])
  else []

end Progress

/-- Reads the statements that are left and carries them out. -/
def carryOut [Keyword.Order] (stop : Position) (scene : Scene) : List Token → Progress
  | [] => ⟨scene, true, [], none⟩
  | t :: ts =>
    match statement ⟨scene, stop⟩ t ts with
    | .error r => ⟨scene, true, [], some r⟩
    | .ok ⟨next, rest, _⟩ =>
      match scene.apply next with
      | .error r => ⟨scene, true, [], some r⟩
      | .ok after =>
        let progress := carryOut stop after rest
        { progress with statements := next :: progress.statements }
termination_by ts => ts.length
decreasing_by assumption

/-- The tokens before the first mark for the end of the file. -/
def content (tokens : List Token) : List Token := tokens.takeWhile fun t => !t.isEnd

/-- The place of the first mark for the end of the file. Tokens without one end on the line after
the last of them, as a machine counts the lines. -/
def stop (tokens : List Token) : Position :=
  match tokens.find? Token.isEnd with
  | some mark => mark.position
  | none =>
    let last := (tokens.getLast?.map (·.position)).getD .nowhere
    { last with line := (last.line + 1) % Word.size, column := 0 }

def read [Keyword.Order] (tokens : List Token) : Progress :=
  let blank := Scene.blank 0 0
  match canvas ⟨blank, stop tokens⟩ (content tokens) with
  | .error r => ⟨blank, false, [], some r⟩
  | .ok ⟨(width, height), rest, _⟩ => carryOut (stop tokens) (.blank width height) rest

end Easel.Description

namespace Easel

open Description

def Scene.ofTokens? [Keyword.Order] (tokens : List Token) : Except Rejection Scene :=
  (read tokens).result

def Rejection.diagnostic (file : String) (r : Rejection) : Diagnostic :=
  .rejected file r.position r.cause r.help

def Scanner.Fault.diagnostic (file : String) (f : Scanner.Fault) : Diagnostic :=
  .malformed file f.position f.cause

/-- The scene that a list of tokens describes, or a report that names the file. -/
def Scene.build? [Keyword.Order] (file : String) (tokens : List Token) :
    Except Diagnostic Scene :=
  (Scene.ofTokens? tokens).mapError (·.diagnostic file)

/-- The tokens of a source text, or a report that names the file. -/
def Token.ofSource? (file source : String) : Except Diagnostic (List Token) :=
  (Token.scan source.toList).mapError (·.diagnostic file)

/-- The scene that a source text describes, or a report that names the file. -/
def Scene.parse? [Keyword.Order] (file source : String) : Except Diagnostic Scene :=
  Token.ofSource? file source >>= Scene.build? file

end Easel
