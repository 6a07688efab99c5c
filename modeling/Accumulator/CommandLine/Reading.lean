import Accumulator.CommandLine.Argument
import Accumulator.CommandLine.Options
import Accumulator.Text.Quoted

/-!
# Reading the command line

The arguments are gone through from left to right and each switch takes effect at its place, so that
the first that asks for help or is in error decides.  Letters behind one dash are all read before
the first of them takes effect.  The first plain argument names the program.  Whatever is left over
is complained about at the end.
-/

namespace Accumulator.CommandLine

open Text

/-- Why no options come of a command line. -/
inductive Stop
  /-- The usage is to be shown. -/
  | help
  /-- The version is to be shown. -/
  | version
  /-- The command line is not understood. -/
  | complaint (message : String)
  deriving DecidableEq, Repr

namespace Stop

/-- A complaint about a switch. -/
def about (switch : Switch) (text : String) : Stop :=
  .complaint ("argument " ++ switch.title ++ ": " ++ text)

/-- The complaint about a text that a switch carries and does not take. -/
def ignored (switch : Switch) (text : List Char) : Stop :=
  about switch ("ignored explicit argument " ++ quoted (String.ofList text))

end Stop

/-- How far the command line has been read. -/
structure Progress where
  options : Options := {}
  /-- Whether the program has been named. -/
  named : Bool := false
  /-- Whether the last argument named the program. -/
  justNamed : Bool := false
  /-- What was left over, in order. -/
  extras : List String := []

namespace Progress

/-- One more argument left over. -/
def leave (p : Progress) (text : String) : Progress :=
  { p with justNamed := false, extras := p.extras ++ [text] }

/-- The program named, if it has not been yet. -/
def name (p : Progress) (text : String) : Progress :=
  if p.named then p.leave text
  else
    let options := { p.options with program := some text }
    { p with options, named := true, justNamed := true }

/-- The effect of a switch without a value. -/
def set (p : Progress) (switch : Switch) : Except Stop Progress :=
  let o := p.options
  let p := { p with justNamed := false }
  match switch with
  | .help => .error .help
  | .version => .error .version
  | .trace => .ok { p with options := { o with trace := true } }
  | .verbose => .ok { p with options := { o with verbosity := o.verbosity + 1 } }
  | .quiet => .ok { p with options := { o with quiet := true } }
  | .batchSize | .dumpFormat | .logFile => .error (.about switch "expected one argument")

/-- The batch size that a text stands for. -/
def readBatchSize (o : Options) (text : String) : Except Stop Options :=
  match Numeral.readGrouped text with
  | .ok (some n) =>
    if h : n < 1 then .error (.about .batchSize ("must be a positive integer: " ++ text))
    else .ok { o with batchSize := some ⟨n.toNat, toNat_pos_of_not_lt_one h⟩ }
  | _ => .error (.about .batchSize ("invalid positive_int value: " ++ quoted text))

/-- The dump format that a text names. -/
def readDumpFormat (o : Options) (text : String) : Except Stop Options :=
  match DumpFormat.all.find? fun format => format.name == text with
  | some dumpFormat => .ok { o with dumpFormat }
  | none =>
    .error (.about .dumpFormat ("invalid choice: " ++ quoted text ++ " (choose from " ++
      ", ".intercalate (DumpFormat.all.map fun format => quoted format.name) ++ ")"))

/-- The options with a value taken away: dumps are then text. -/
def withoutValue (o : Options) : Switch → Options
  | .batchSize => { o with batchSize := none }
  | .dumpFormat => { o with dumpFormat := .text }
  | .logFile => { o with logFile := none }
  | _ => o

/-- The effect of a switch with a value.  The separator in the place of a value leaves none. -/
def assign (p : Progress) (switch : Switch) (text : String) : Except Stop Progress := do
  let o := p.options
  let options ← match switch, text with
    | _, "--" => .ok (withoutValue o switch)
    | .batchSize, _ => readBatchSize o text
    | .dumpFormat, _ => readDumpFormat o text
    | .logFile, _ => .ok { o with logFile := some text }
    | _, _ => .error (.ignored switch text.toList)
  return { p with options, justNamed := false }

end Progress

/-- A switch and the switches that the letters behind it stand for.  A letter that is no switch is
laid to the switch before it, with all that follows. -/
def cluster (switch : Switch) : List Char → Except Stop (List Switch)
  | [] => .ok [switch]
  | c :: cs =>
    match switch? (String.ofList ['-', c]) with
    | none => .error (.ignored switch (c :: cs))
    | some next => do
      let switches ← cluster next cs
      return switch :: switches

/-- The effect of a switch and of the text that it carries. -/
def applyAttached (p : Progress) (switch : Switch) (spelling : String) (attached : List Char) :
    Except Stop Progress :=
  if switch.takesValue then p.assign switch (String.ofList attached)
  else if attached.isEmpty || spelling.startsWith "--" then .error (.ignored switch attached)
  else do
    let switches ← cluster switch attached
    switches.foldlM Progress.set p

/-- The effect of arguments, in order. -/
def apply (p : Progress) : List Argument → Except Stop Progress
  | [] => .ok p
  | .plain text :: rest => apply (p.name text) rest
  | .separator :: rest =>
    -- A separator belongs to the program's name if it stands right before or behind it.
    if !p.named || p.justNamed then apply { p with justNamed := false } rest
    else apply (p.leave "--") rest
  | .unknown text :: rest => apply (p.leave text) rest
  | .known switch spelling (some attached) :: rest => do
    let p ← applyAttached p switch spelling attached
    apply p rest
  | .known switch _ none :: rest =>
    if switch.takesValue then
      match rest with
      | .plain text :: rest => do
        let p ← p.assign switch text
        apply p rest
      | _ => .error (.about switch "expected one argument")
    else do
      let p ← p.set switch
      apply p rest

/-- The options of a command line. -/
def read (texts : List String) : Except Stop Options := do
  let arguments ← (Argument.ofStrings texts).mapError .complaint
  let p ← apply {} arguments
  if p.extras.isEmpty then return p.options
  else throw (.complaint ("unrecognized arguments: " ++ " ".intercalate p.extras))

end Accumulator.CommandLine
