import Accumulator.Fault
import Accumulator.Instruction.Basic
import Accumulator.Memory.Basic
import Accumulator.Text.Line

/-!
# The journal

What happens while a program is read, loaded and run is noted as a sequence of events.  An event is
data; its source, its level and its wording are functions of it, so that whoever keeps the journal
decides what is shown and where.
-/

namespace Accumulator

/-- How much an event matters, the least first. -/
inductive Level
  | debug
  | info
  | warning
  | error
  deriving DecidableEq, Repr

namespace Level

/-- The name of a level in a journal. -/
def name : Level → String
  | debug => "DEBUG"
  | info => "INFO"
  | warning => "WARNING"
  | error => "ERROR"

/-- The rank of a level: the greater, the more it matters. -/
def rank : Level → Nat
  | debug => 0
  | info => 1
  | warning => 2
  | error => 3

end Level

/-- The part of the simulator that an event comes from. -/
inductive Origin
  | reader
  | memory
  | symbols
  | machine
  | session
  deriving DecidableEq, Repr

/-- The name of an origin in a journal. -/
def Origin.name : Origin → String
  | reader => "sal_sim.loader"
  | memory => "sal_sim.memory"
  | symbols => "sal_sim.symbols"
  | machine => "sal_sim.machine"
  | session => "salsim"

/-- What can happen. -/
inductive Event
  /-- A program file was read. -/
  | programRead (lines : Nat) (path : String)
  /-- A program reaches into data memory. -/
  | programOverlapsData (lines : Nat)
  /-- Words were put into memory. -/
  | wordsLoaded (count : Nat)
  /-- A program was loaded. -/
  | programLoaded (count : Nat)
  /-- A name was given a new address. -/
  | rebound (name : String) (old new : Int)
  /-- An instruction was decoded and is about to be executed. -/
  | decoded (programCounter : Int) (instruction : Instruction)
  /-- The program came to its end. -/
  | halted (programCounter executed : Int)
  /-- A fault stopped the machine. -/
  | faulted (programCounter : Int) (fault : Fault)
  /-- A batch of a run was executed to its end. -/
  | batchDone (count : Nat) (programCounter : Int)
  /-- A run was not continued. -/
  | runStopped
  /-- A machine that has come to its end was told to go on. -/
  | ignored (request state : String)
  /-- The user broke off the session. -/
  | interrupted

namespace Event

open Numeral (decimal)

/-- Where an event comes from. -/
def origin : Event → Origin
  | programRead _ _ => .reader
  | programOverlapsData _ | wordsLoaded _ => .memory
  | rebound _ _ _ => .symbols
  | interrupted => .session
  | _ => .machine

/-- How much an event matters. -/
def level : Event → Level
  | wordsLoaded _ | rebound _ _ _ | decoded _ _ => .debug
  | programOverlapsData _ | ignored _ _ | interrupted => .warning
  | faulted _ _ => .error
  | _ => .info

/-- The wording of an event. -/
def message : Event → String
  | programRead lines path => "Read " ++ decimal lines ++ " lines from " ++ path
  | programOverlapsData lines =>
    "Program is " ++ decimal lines ++ " lines; lines past " ++ decimal (Memory.dataStart - 1) ++
      " overlap data memory"
  | wordsLoaded count => "Loaded " ++ decimal count ++ " program words"
  | programLoaded count => "Program loaded: " ++ decimal count ++ " words"
  | rebound name old new => "Rebinding " ++ name ++ ": " ++ decimal old ++ " -> " ++ decimal new
  | decoded programCounter instruction =>
    Text.flushRight 3 (decimal programCounter) ++ ": " ++ instruction.text
  | halted programCounter executed =>
    "HLT at PC=" ++ decimal programCounter ++ " after " ++ decimal executed ++ " instructions"
  | faulted programCounter fault =>
    "Fault at PC=" ++ decimal programCounter ++ ": " ++ fault.kind.label ++ ": " ++ fault.message
  | batchDone count programCounter =>
    "Batch of " ++ decimal count ++ " instructions done at PC=" ++ decimal programCounter
  | runStopped => "Run stopped by caller"
  | ignored request state => request ++ "() ignored: machine is " ++ state
  | interrupted => "Interrupted by user"

/-- Whether an event is shown where events from a level on are. -/
def isShown (level : Level) (event : Event) : Bool := level.rank ≤ event.level.rank

/-- The line of an event where it is shown. -/
def shownLine (event : Event) : String := event.level.name ++ ": " ++ event.message ++ "\n"

/-- The line of an event in a file that keeps events, without the time at which it happened. -/
def keptLine (event : Event) : String :=
  event.origin.name ++ " - " ++ event.level.name ++ " - " ++ event.message ++ "\n"

end Event

end Accumulator
