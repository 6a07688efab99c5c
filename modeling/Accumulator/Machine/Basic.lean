import Accumulator.Journal
import Accumulator.Memory.Basic
import Accumulator.Registers
import Accumulator.Snapshot.Text
import Accumulator.SymbolTable

/-!
# Machines

The core of a machine is what instructions act on: registers, memory and symbol table.  A machine
adds what belongs to running a program: the program as it was loaded, the state it is in, the fault
that stopped it, the batch size of its runs and the instruction trace.

Loading is all or nothing: a program that does not fit leaves the machine as it was.  Resetting
loads the last program again.
-/

namespace Accumulator

/-- The states of a machine. -/
inductive State
  /-- A program may be stepped or run. -/
  | ready
  /-- Instructions are being executed. -/
  | running
  /-- A run has come to the end of a batch. -/
  | awaitingContinue
  /-- The program has ended. -/
  | halted
  /-- A run was not continued; the program has not ended. -/
  | stopped
  /-- A fault has ended the program. -/
  | faulted
  deriving DecidableEq, Repr

namespace State

/-- The states in order. -/
def all : List State := [ready, running, awaitingContinue, halted, stopped, faulted]

/-- The name of a state. -/
def name : State → String
  | ready => "READY"
  | running => "RUNNING"
  | awaitingContinue => "AWAITING_CONTINUE"
  | halted => "HALTED"
  | stopped => "STOPPED"
  | faulted => "FAULTED"

/-- Whether a machine in the state executes nothing any more. -/
def isTerminal : State → Bool
  | halted | faulted => true
  | _ => false

end State

/-- What instructions act on. -/
structure Core where
  registers : Registers
  memory : Memory
  symbols : SymbolTable

/-- A machine with its program. -/
structure Machine extends Core where
  /-- How many instructions a run executes before it asks to go on. -/
  batchSize : Nat
  batchSize_pos : 0 < batchSize
  state : State := .ready
  /-- The fault that stopped the machine. -/
  fault : Option Fault := none
  /-- The words of the program as it was loaded. -/
  program : List Word := []
  /-- Whether instructions are traced. -/
  tracing : Bool := false
  /-- The lines of the trace. -/
  trace : Array String := #[]

/-- What a request to a machine comes to: the machine afterwards, the answer and what was noted on
the way. -/
structure Report (ε α : Type) where
  machine : Machine
  answer : Except ε α
  events : Array Event

/-- An integer that is not below one is a positive number of instructions. -/
theorem toNat_pos_of_not_lt_one {n : Int} (h : ¬ n < 1) : 0 < n.toNat := by omega

/-- Why there is no machine with the sizes that were asked for. -/
inductive MachineError
  /-- The batch size is not positive. -/
  | batchSize (offered : Int)
  /-- There is no memory of the size. -/
  | memorySize (error : SizeError)
  deriving DecidableEq, Repr

/-- The wording of the refusal. -/
def MachineError.message : MachineError → String
  | batchSize offered => "batch_size must be positive, got " ++ Numeral.decimal offered
  | memorySize error => error.message

namespace Machine

/-- The batch size of a machine unless another is asked for. -/
def standardBatchSize : Nat := 1000

/-- A machine without a program. -/
def blank (batchSize : Nat) (batchSize_pos : 0 < batchSize)
    (memorySize : Int := Memory.standardSize) : Machine where
  registers := .initial
  memory := .blank memorySize
  symbols := .new Memory.dataStart memorySize
  batchSize
  batchSize_pos

/-- A machine without a program, for a batch size that may not be positive and a memory size of
which there may be no memory where there is room for so many cells. -/
def new (batchSize : Int := standardBatchSize) (memorySize : Int := Memory.standardSize)
    (room : Int := Memory.standardRoom) : Except MachineError Machine :=
  if h : batchSize < 1 then .error (.batchSize batchSize)
  else match Memory.sizeError? memorySize room with
    | some error => .error (.memorySize error)
    | none => .ok (blank batchSize.toNat (toNat_pos_of_not_lt_one h) memorySize)

/-- The machine as it stands before its first instruction: power-on registers, no symbols, an empty
trace, no fault. -/
def rewind (m : Machine) : Machine :=
  { m with
    registers := .initial
    symbols := m.symbols.reset
    trace := #[]
    fault := none
    state := .ready }

/-- What is noted when a program of so many words is put into memory. -/
def loadingEvents (count : Nat) : Array Event :=
  let overlap := if Memory.dataStart < count then #[.programOverlapsData count] else #[]
  overlap.push (.wordsLoaded count)

/-- A program loaded into fresh memory, with the machine ready to run it. -/
def load (m : Machine) (program : List Word) : Report Failure Unit :=
  match (Memory.blank m.memory.size).load program with
  | .error failure => ⟨m, .error failure, #[]⟩
  | .ok memory =>
    ⟨{ m with memory, program }.rewind, .ok (),
      (loadingEvents program.length).push (.programLoaded program.length)⟩

/-- The last program loaded again, with the machine ready to run it. -/
def reset (m : Machine) : Report Failure Unit :=
  match m.memory.clear.load m.program with
  | .error failure => ⟨{ m with memory := m.memory.clear }, .error failure, #[]⟩
  | .ok memory => ⟨{ m with memory }.rewind, .ok (), loadingEvents m.program.length⟩

/-- What a dump shows of the machine as it stands. -/
def snapshot (m : Machine) : Snapshot where
  accumulator := m.registers.accumulator
  data := m.registers.data
  programCounter := m.registers.programCounter
  zero := m.registers.zero
  overflow := m.registers.overflow
  memory := m.memory.used
  symbols := m.symbols.bindings
  state := m.state.name
  executed := m.registers.executed

end Machine

end Accumulator
