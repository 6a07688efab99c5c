import Accumulator.Machine.Basic

/-!
# Options

What the command line settles: the program file, the batch size of runs, the form of dumps, whether
the trace is printed, and which events are shown and kept.
-/

namespace Accumulator

/-- The form of a dump. -/
inductive DumpFormat
  | text
  | json
  deriving DecidableEq, Repr

/-- The formats in the order in which they are offered. -/
def DumpFormat.all : List DumpFormat := [text, json]

/-- The name of a format. -/
def DumpFormat.name : DumpFormat → String
  | text => "text"
  | json => "json"

/-- What the command line settles. -/
structure Options where
  /-- The program file, if one is named. -/
  program : Option String := none
  /-- The batch size of runs, if there is one. -/
  batchSize : Option { n : Nat // 0 < n } := some ⟨Machine.standardBatchSize, by decide⟩
  dumpFormat : DumpFormat := .text
  /-- Whether the trace is printed at the end. -/
  trace : Bool := false
  /-- How often more events were asked for. -/
  verbosity : Nat := 0
  /-- Whether only errors are shown. -/
  quiet : Bool := false
  /-- The file that keeps all events, if one is named. -/
  logFile : Option String := none

namespace Options

/-- The program file; an empty name is none. -/
def programName? (o : Options) : Option String := o.program.filter (· != "")

/-- The file that keeps all events; an empty name is none. -/
def logName? (o : Options) : Option String := o.logFile.filter (· != "")

/-- The level from which on events are shown. -/
def level (o : Options) : Level :=
  if o.quiet then .error
  else match o.verbosity with
    | 0 => .warning
    | 1 => .info
    | _ => .debug

end Options

end Accumulator
