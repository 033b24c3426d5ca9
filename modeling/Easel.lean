import Easel.Command.FileTree
import Easel.Main
import Easel.Proofs.Image.Pruning
import Easel.Proofs.Description.Statements
import Easel.Proofs.Number.Comparison
import Easel.Proofs.Scene.Declarations
import Easel.Proofs.Drawing.Consult
import Easel.Proofs.Scene.Sound
import Easel.Proofs.Description.Representation
import Easel.Proofs.Description.Denotation
import Easel.Proofs.Description.Acceptance
import Easel.Proofs.Number.Whole
import Easel.Proofs.Text.Place
import Easel.Proofs.Token.Layout
import Easel.Proofs.Token.Scanning
import Easel.Proofs.Token.Partition
import Easel.Proofs.Description.Rejection
import Easel.Proofs.Diagnostic.Located
import Easel.Proofs.Plane.Exact
import Easel.Proofs.Drawing.Conservative
import Easel.Proofs.Number.Exact
import Easel.Proofs.Scene.Exact
import Easel.Proofs.Number.Rounding
import Easel.Proofs.Scene.Memory
import Easel.Proofs.Scene.Ranges
import Easel.Proofs.Description.Continuation
import Easel.Proofs.Token.Words
import Easel.Proofs.Description.Indexed
import Easel.Proofs.Token.Reading
import Easel.Proofs.Description.Stepping
import Easel.Proofs.Description.Placement
import Easel.Proofs.Token.Spacing
import Easel.Proofs.Text.Ascii
import Easel.Proofs.Image.Header
import Easel.Proofs.Image.Rows
import Easel.Proofs.Image.Files
import Easel.Proofs.Drawing.Relocation
import Easel.Proofs.Scene.Relocation
import Easel.Proofs.Description.Mentions
import Easel.Proofs.Description.Instructions
import Easel.Proofs.Description.Independence
import Easel.Proofs.Command.Path
import Easel.Proofs.Command.FileTree
import Easel.Proofs.Command.Run
import Easel.Proofs.Image.Marks
import Easel.Proofs.Token.Literal
import Easel.Proofs.Token.Fault
import Easel.Proofs.Number.Order
import Easel.Proofs.Text.Similarity
import Easel.Proofs.Description.Suggestion
import Easel.Proofs.Number.Natural
import Easel.Proofs.Description.Canvas
import Easel.Proofs.Drawing.Transform
import Easel.Proofs.Description.Landmarks
import Easel.Proofs.Image.Loading
import Easel.Proofs.Drawing.Incidence
import Easel.Proofs.Image.Refilling
import Easel.Proofs.Description.Stateful
import Easel.Proofs.Description.Frame
import Easel.Proofs.Token.Readable
import Easel.Proofs.Diagnostic.Wanted
import Easel.Proofs.Scene.FirstDeclaration
import Easel.Proofs.Image.Layout
import Easel.Proofs.Plane.Extremes
import Easel.Proofs.Drawing.Union
import Easel.Proofs.Drawing.Flattening
import Easel.Proofs.Token.Line
import Easel.Proofs.Command.Background
import Easel.Proofs.Text.OneLine
import Easel.Proofs.Description.Naming
import Easel.Proofs.Diagnostic.OneLine
import Easel.Proofs.Text.Closest
