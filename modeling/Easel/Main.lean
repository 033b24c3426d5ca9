import Easel.Command.Run

/-! The program: takes its arguments, reads the source file, writes the picture, and prints what a
run leaves. -/

namespace Easel.Program

/-- The bytes of a file, or `none` if it cannot be read. -/
def read? (path : String) : IO (Option (List UInt8)) := do
  try
    return some (← IO.FS.readBinFile path).data.toList
  catch _ => return none

/-- Writes a picture, and gives the outcome that follows. -/
def write (outcome : Command.Outcome) (picture : Command.Picture) : IO Command.Outcome := do
  try
    IO.FS.writeBinFile picture.path ⟨picture.bytes.toArray⟩
    return Command.written outcome picture
  catch _ => return Command.unwritten outcome picture

/-- The advice that goes with the report, which those who want the plain report do not get. -/
def advice (o : Options) (outcome : Command.Outcome) : List String :=
  if o.plain then [] else (outcome.report.bind Diagnostic.help?).toList

def run (o : Options) : IO Command.Outcome := do
  let bytes ← match o.sourcePath with
    | .ok path => read? path
    | .error _ => pure none
  match Command.compile .wraps o fun _ => bytes with
  | (outcome, none) => return outcome
  | (outcome, some picture) => write outcome picture

/-- The exit code that a run is given if the machine stops it. -/
def crashCode : UInt32 := 101

/-- Prints what a run leaves, or what there is to say about a command line that is not carried
out, and gives the exit code. -/
def exitCode (arguments : List String) : IO UInt32 := do
  match Options.ofArguments? arguments with
  | .error e =>
    IO.print (Command.usageText e)
    if e.exitCode ≠ 0 then IO.eprintln Command.usage
    return e.exitCode.toUInt32
  | .ok o =>
    let outcome ← run o
    IO.print outcome.output
    for line in Command.errorLines o outcome ++ advice o outcome do
      IO.eprintln line
    return (outcome.exitCode?.map Nat.toUInt32).getD crashCode

end Easel.Program

def main (arguments : List String) : IO UInt32 := Easel.Program.exitCode arguments
