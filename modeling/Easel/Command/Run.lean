import Easel.Command.Options
import Easel.Description.Basic
import Easel.Image.Pixmap
import Easel.Journal
import Easel.Scene.Outline

/-! One run of the program, apart from reading and writing files. `compile` goes as far as the bytes
of the picture; whoever runs it writes them and calls `written` or `unwritten`. -/

namespace Easel.Command

def version : String := "painter 0.1.0"

def usage : String :=
  "Usage: painter [--debug] [--plain] [--check] [--stats] [--precedence first|last]" ++
    " [--background R,G,B] FILE [OUTPUT]"

/-- What is shown on standard output for a command line that is not carried out. -/
def usageText : UsageError → String
  | .displayVersion => version ++ "\n"
  | .displayHelp => usage ++ "\n"
  | _ => ""

/-- The parts of the program that write to the journal. -/
inductive Part where
  | program
  | reading
  | scanning
  | painting

/-- What the journal calls a part of the program. -/
def Part.target : Part → String
  | program => "painter"
  | reading => "painter::parser"
  | scanning => "painter::parser::lexer"
  | painting => "painter::raster"

/-- An entry that only matters to those who look for a fault. -/
def debugEntry (part : Part) (message : String) : Entry := ⟨.debug, part.target, message⟩

/-- How a run ends: with its work done, with a report, or without one if the machine stops it. -/
inductive Ending where
  | finished
  | failed (report : Diagnostic)
  | crashed
  deriving DecidableEq

/-- What a run leaves: the text on standard output, the journal, and how it ended. -/
structure Outcome where
  output : String
  journal : List Entry
  ending : Ending
  deriving DecidableEq

namespace Outcome

def report (o : Outcome) : Option Diagnostic :=
  match o.ending with
  | .failed report => some report
  | _ => none

/-- The exit code of the program. A run that the machine stops gives none. -/
def exitCode? (o : Outcome) : Option Nat :=
  match o.ending with
  | .finished => some 0
  | .failed _ => some 1
  | .crashed => none

end Outcome

/-- A file to be written, and whether it is complete. -/
structure Picture where
  path : String
  width : Nat
  height : Nat
  bytes : List UInt8
  complete : Bool
  deriving DecidableEq

/-- The file that an image is written to. It ends behind the header if there is no room for a
row. -/
def Picture.ofImage (machine : Overflow) (path : String) (image : Image) : Picture :=
  if Pixmap.hasRoom machine image.width then
    ⟨path, image.width, image.height, Pixmap.encode image, true⟩
  else
    ⟨path, image.width, image.height, Utf8.encode (Pixmap.header image.width image.height), false⟩

/-- The entries about scanning and reading a source text, and the scene or the report. -/
def readSource [Description.Keyword.Order] (file source : String) :
    List Entry × Except Diagnostic Scene :=
  match Token.ofSource? file source with
  | .error report => ([], .error report)
  | .ok tokens =>
    let progress := Description.read tokens
    (debugEntry .scanning s!"{file}: {tokens.length} tokens" ::
        progress.notes.map (fun note => debugEntry .reading s!"{file}: {note}"),
      progress.result.mapError (·.diagnostic file))

/-- What is printed about a scene: its outline for those who look for a fault, and how many things
it has if that is asked for. -/
def summary (o : Options) (scene : Scene) : String :=
  (if o.debug then scene.outline.text ++ "\n" else "") ++
    (if o.stats || o.check then scene.statistics.text ++ "\n" else "")

/-- Runs up to the picture, which is missing if the source is only checked or has a fault, or if the
machine stops while it is painted. The source file is given by its bytes, or `none` if it cannot be
read. -/
def compile [Description.Keyword.Order] (machine : Overflow) (o : Options)
    (source : String → Option (List UInt8)) : Outcome × Option Picture :=
  match o.sourcePath with
  | .error report => (⟨"", [], .failed report⟩, none)
  | .ok path =>
    match (source path).bind Utf8.text? with
    | none => (⟨"", [], .failed (.unreadable path)⟩, none)
    | some text =>
      match readSource path text with
      | (entries, .error report) => (⟨"", entries, .failed report⟩, none)
      | (entries, .ok scene) =>
        if o.check then (⟨summary o scene, entries, .finished⟩, none)
        else
          let painting := scene.paintingNotes machine o.precedence o.background
          let journal := entries ++ painting.map (debugEntry .painting)
          match scene.picture? machine o.precedence o.background with
          | none => (⟨summary o scene, journal, .crashed⟩, none)
          | some image =>
            (⟨summary o scene, journal, .finished⟩, some (.ofImage machine o.outputPath image))

def written (outcome : Outcome) (picture : Picture) : Outcome :=
  if picture.complete then
    let message := s!"wrote {picture.width}x{picture.height} image to {picture.path}"
    { outcome with journal := outcome.journal ++ [⟨.info, Part.program.target, message⟩] }
  else { outcome with ending := .crashed }

def unwritten (outcome : Outcome) (picture : Picture) : Outcome :=
  { outcome with ending := .failed (.unwritable picture.path) }

/-- The last level of the journal that is written. -/
def mostLevel (o : Options) : Level := if o.debug then .debug else .warn

def journalLines (o : Options) (outcome : Outcome) : List String :=
  (outcome.journal.filter fun e => e.level.enabled (some (mostLevel o))).map Entry.line

/-- What is printed on standard error: the journal, and then the report on one line. -/
def errorLines (o : Options) (outcome : Outcome) : List String :=
  journalLines o outcome ++ (outcome.report.map Diagnostic.message).toList

end Easel.Command
