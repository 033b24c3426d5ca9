import Easel.Color
import Easel.Command.Path
import Easel.Diagnostic.Basic
import Easel.Image.Painting

/-! The command line: a source file, an optional output file, four switches, and two options with a
value. The arguments are taken from left to right. A value is checked when the argument after it
is taken, unless that argument is one that no command line can have. -/

namespace Easel

/-- Why a command line is not carried out, or what is shown in its place. -/
inductive UsageError where
  | displayHelp
  | displayVersion
  | unknownArgument
  | missingArgument
  | repeatedArgument
  | unwantedValue
  | invalidValue
  | rejectedValue (reason : String)
  deriving DecidableEq, Repr

/-- The exit code of a command line that is not carried out. -/
def UsageError.exitCode : UsageError → Nat
  | displayHelp | displayVersion => 0
  | _ => 2

/-- What a command line asks for. -/
structure Options where
  debug : Bool
  plain : Bool
  check : Bool
  stats : Bool
  source : String
  output : Option String
  precedence : Precedence
  background : Color
  deriving DecidableEq, Repr

namespace Options

def sourceExtension : String := "paint"

def outputExtension : String := "ppm"

/-- The path of the source, if it has the extension of a source file. -/
def sourcePath (o : Options) : Except Diagnostic String :=
  if Path.extension? o.source = some sourceExtension.toList then .ok o.source
  else .error (.input s!"'{o.source}' is not a .{sourceExtension} file.")

/-- The path of the picture: the one that is given, or else that of the source with the extension
of a picture. -/
def outputPath (o : Options) : String :=
  o.output.getD (Path.withExtension o.source outputExtension)

end Options

namespace Arguments

/-- A channel of a background colour, with blanks around it allowed. -/
def channel (text : List Char) : Except String Float :=
  match Literal.read? (Text.trim text) with
  | none => .error s!"'{String.ofList text}' is not a number"
  | some value =>
    if Color.isChannel value then .ok value
    else .error s!"channel {Binary64.text value} is not between 0 and 1"

/-- A background colour: three channels with commas between them. -/
def background (text : String) : Except String Color := do
  match ← (text.toList.splitOn ',').mapM channel with
  | [red, green, blue] => return .ofChannels red green blue
  | channels => throw s!"expected 3 channels, got {channels.length}"

/-- The arguments that take no value. -/
inductive Switch where
  | debug
  | plain
  | check
  | stats
  deriving DecidableEq

/-- The arguments that take a value. The first two are known by their order alone. -/
inductive Slot where
  | source
  | output
  | precedence
  | background
  deriving DecidableEq

/-- What a long argument names. -/
inductive LongName where
  | help
  | version
  | switch (s : Switch)
  | option (s : Slot)

/-- What a long argument names, without the two dashes in front. -/
def longName? : String → Option LongName
  | "help" => some .help
  | "version" => some .version
  | "debug" => some (.switch .debug)
  | "plain" => some (.switch .plain)
  | "check" => some (.switch .check)
  | "stats" => some (.switch .stats)
  | "precedence" => some (.option .precedence)
  | "background" => some (.option .background)
  | _ => none

/-- What was taken from the command line so far. `pending` is an argument whose value, if it has
one yet, is not checked. `order` counts the arguments that are known by their order, and behind
two dashes, which set `literal`, there are no others. -/
structure Taken where
  switches : List Switch
  source : Option String
  output : Option String
  precedence : Option Precedence
  background : Option Color
  pending : Option (Slot × Option String)
  order : Nat
  literal : Bool

namespace Taken

/-- Nothing is taken. -/
def start : Taken := ⟨[], none, none, none, none, none, 0, false⟩

/-- The value of an argument with a path, which must not be empty. -/
def path (text : String) : Except UsageError String :=
  if text.isEmpty then .error .invalidValue else .ok text

def order? (text : String) : Except UsageError Precedence :=
  if text = "first" then .ok .first
  else if text = "last" then .ok .last
  else .error .invalidValue

/-- Refuses to fill a slot for the second time. -/
def fresh {β : Type} (slot : Option β) : Except UsageError Unit :=
  if slot.isSome then .error .repeatedArgument else .ok ()

/-- Checks a value and puts it in its slot. A slot holds one value, and no value at all is none of
those that any slot takes. -/
def fill (t : Taken) (slot : Slot) (value : Option String) : Except UsageError Taken :=
  match value with
  | none => .error .invalidValue
  | some text =>
    match slot with
    | .source => do
      fresh t.source
      return { t with source := some (← path text) }
    | .output => do
      fresh t.output
      return { t with output := some (← path text) }
    | .precedence => do
      fresh t.precedence
      return { t with precedence := some (← order? text) }
    | .background => do
      fresh t.background
      return { t with background := some (← (Arguments.background text).mapError .rejectedValue) }

/-- Checks the pending value. -/
def settle (t : Taken) : Except UsageError Taken :=
  match t.pending with
  | none => .ok t
  | some (slot, value) => { t with pending := none }.fill slot value

/-- Takes a switch. -/
def flip (t : Taken) (s : Switch) : Except UsageError Taken := do
  let t ← t.settle
  if t.switches.contains s then throw .repeatedArgument
  return { t with switches := s :: t.switches }

/-- Takes a long argument, which may have a value behind an equals sign. -/
def long (t : Taken) (name : String) (value : Option String) : Except UsageError Taken :=
  match longName? name, value with
  | none, _ => .error .unknownArgument
  | some (.option slot), some text => do (← t.settle).fill slot (some text)
  | some (.option slot), none => do return { ← t.settle with pending := some (slot, none) }
  | some _, some _ => .error .unwantedValue
  | some .help, none => do
    let _ ← t.settle
    throw .displayHelp
  | some .version, none => do
    let _ ← t.settle
    throw .displayVersion
  | some (.switch s), none => t.flip s

/-- Takes a short argument, given by its letters. Only the first one counts, because each of them
ends the command line. -/
def short (t : Taken) (letter : Char) : Except UsageError Taken :=
  if letter = 'h' then do
    let _ ← t.settle
    throw .displayHelp
  else if letter = 'V' then do
    let _ ← t.settle
    throw .displayVersion
  else .error .unknownArgument

/-- Takes an argument that is known by its order. -/
def positional (t : Taken) (text : String) : Except UsageError Taken :=
  match t.order with
  | 0 => do return { ← t.settle with pending := some (.source, some text), order := 1 }
  | 1 => do return { ← t.settle with pending := some (.output, some text), order := 2 }
  | _ => .error .unknownArgument

/-- Takes an argument that does not look like a name: the value of the option before it, if that
has none, and else one that is known by its order. -/
def plainText (t : Taken) (text : String) : Except UsageError Taken :=
  match t.pending with
  | some (slot, none) => .ok { t with pending := some (slot, some text) }
  | _ => t.positional text

/-- Takes the next argument. -/
def next (t : Taken) (argument : String) : Except UsageError Taken :=
  if t.literal then t.positional argument
  else
    match argument.toList with
    | ['-', '-'] => .ok { t with literal := true }
    | '-' :: '-' :: name =>
      let value := (name.dropWhile (· ≠ '=')).drop 1
      t.long (String.ofList (name.takeWhile (· ≠ '=')))
        (if name.contains '=' then some (String.ofList value) else none)
    | '-' :: letter :: _ => t.short letter
    | _ => t.plainText argument

/-- What the command line asks for, after all arguments are taken. -/
def finish (t : Taken) : Except UsageError Options := do
  let t ← t.settle
  match t.source with
  | none => throw .missingArgument
  | some source =>
    return {
      debug := t.switches.contains .debug
      plain := t.switches.contains .plain
      check := t.switches.contains .check
      stats := t.switches.contains .stats
      source
      output := t.output
      precedence := t.precedence.getD .first
      background := t.background.getD .black }

end Taken

end Arguments

/-- What a command line asks for. The arguments do not include the name of the program. -/
def Options.ofArguments? (arguments : List String) : Except UsageError Options := do
  (← arguments.foldlM Arguments.Taken.next .start).finish

end Easel
