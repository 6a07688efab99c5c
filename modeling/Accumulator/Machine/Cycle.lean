import Accumulator.Instruction.Decode
import Accumulator.Machine.Basic

/-!
# The instruction cycle

One cycle fetches the word at the program counter, decodes it, adds a line to the trace if the
machine is traced, and executes the instruction.  Everything that can fail is done before registers,
memory or symbols change, so a cycle that fails leaves the core as it found it.

`step` is one cycle seen from outside: it ends in a state, and a fault is kept in the machine.  A
machine that has come to its end ignores the request.
-/

namespace Accumulator

namespace Core

/-- The instruction at the program counter. -/
def fetch (c : Core) : Except Failure Instruction := do
  let word ← c.memory.read c.registers.programCounter
  Instruction.decode word (some c.registers.programCounter)

/-- The integer in the data cell at an address; an untouched cell counts as zero. -/
def readInteger (c : Core) (address : Int) : Except Failure Int := do
  let word ← c.memory.read address
  match word with
  | .number n => if n = 0 then .ok 0 else .error (.ofCause (.corruptData word) address)
  | .text s =>
    match Numeral.read s with
    | .error error => .error (.overlong error)
    | .ok none => .error (.ofCause (.corruptData word) address)
    | .ok (some n) => .ok n

/-- The core after an instruction that goes on with the next address. -/
def complete (c : Core) : Core := { c with registers := c.registers.count.goOn }

/-- The core after a jump. -/
def jump (c : Core) (target : Int) : Core := { c with registers := c.registers.count.goTo target }

/-- The core after an instruction. -/
def execute (c : Core) : Instruction → Except Failure Core
  | .declare name => do
    let symbols ← c.symbols.declare name
    return { c with symbols }.complete
  | .load name => do
    let address ← c.symbols.resolve name
    let n ← c.readInteger address
    return { c with registers := { c.registers with accumulator := n } }.complete
  | .loadImmediate n =>
    .ok { c with registers := { c.registers with accumulator := n } }.complete
  | .store name => do
    let address ← c.symbols.resolve name
    let text ← (Numeral.write c.registers.accumulator).mapError .overlong
    let memory ← c.memory.write address (.text text)
    return { c with memory }.complete
  | .exchange => .ok { c with registers := c.registers.exchange }.complete
  | .jump target => .ok (c.jump target)
  | .jumpIfZero target => .ok (if c.registers.zero then c.jump target else c.complete)
  | .jumpIfOverflow target => .ok (if c.registers.overflow then c.jump target else c.complete)
  | .add =>
    let outcome := Outcome.add c.registers.accumulator c.registers.data
    .ok { c with registers := c.registers.accept outcome }.complete
  | .subtract =>
    let outcome := Outcome.sub c.registers.accumulator c.registers.data
    .ok { c with registers := c.registers.accept outcome }.complete
  | .halt => .ok { c with registers := c.registers.count }

/-- What is noted beyond the instruction itself when it is executed: that a name gets a new
address. -/
def sideNotes (c : Core) : Instruction → Array Event
  | .declare name =>
    match c.symbols.address? name with
    | none => #[]
    | some address => #[.rebound name address c.symbols.next]
  | _ => #[]

end Core

/-- How a cycle that did not fail leaves the program. -/
inductive Pace
  /-- There is a next instruction. -/
  | goesOn
  /-- The program has ended. -/
  | ends
  deriving DecidableEq, Repr

namespace Machine

/-- The trace line of an instruction: its address, its text and the registers before it. -/
def traceLine (m : Machine) (instruction : Instruction) : Except Overlong String := do
  let address ← Numeral.write m.registers.programCounter
  let registers ← m.registers.display
  return "[" ++ Text.flushRight 3 address ++ "] " ++ Text.flushLeft 12 instruction.text ++ " " ++
    registers

/-- The line that an instruction adds to the trace, if the machine is traced. -/
def traceLine? (m : Machine) (instruction : Instruction) : Except Overlong (Option String) :=
  if m.tracing then do
    let line ← m.traceLine instruction
    return some line
  else .ok none

/-- The machine with a line, if there is one, added to its trace. -/
def record (m : Machine) (line? : Option String) : Machine :=
  match line? with
  | none => m
  | some line => { m with trace := m.trace.push line }

/-- One cycle: fetch, decode, trace, execute. -/
def cycle (m : Machine) : Report Failure Pace :=
  match m.fetch with
  | .error failure => ⟨m, .error failure, #[]⟩
  | .ok instruction =>
    match m.traceLine? instruction with
    | .error error => ⟨m, .error (.overlong error), #[]⟩
    | .ok line? =>
      let m := m.record line?
      let noted := .decoded m.registers.programCounter instruction
      match m.execute instruction with
      | .error failure => ⟨m, .error failure, #[noted]⟩
      | .ok core =>
        let notes := #[noted] ++ m.sideNotes instruction
        ⟨{ m with toCore := core }, .ok (if instruction.halts then .ends else .goesOn), notes⟩

/-- The machine with instructions being executed. -/
def start (m : Machine) : Machine := { m with state := .running }

/-- Cycles brought to rest: a machine whose program goes on is left in the state `rest`, and one
that met its end or a fault in the state that says so.  A numeral that was too long leaves the
machine as it is. -/
def settle (rest : State) (report : Report Failure Pace) : Report Overlong State :=
  let m := report.machine
  match report.answer with
  | .ok .goesOn => ⟨{ m with state := rest }, .ok rest, report.events⟩
  | .ok .ends =>
    ⟨{ m with state := .halted }, .ok .halted,
      report.events.push (.halted m.registers.programCounter m.registers.executed)⟩
  | .error (.fault fault) =>
    ⟨{ m with state := .faulted, fault := some fault }, .ok .faulted,
      report.events.push (.faulted m.registers.programCounter fault)⟩
  | .error (.overlong error) => ⟨m, .error error, report.events⟩

/-- The report of a machine that has come to its end and ignores a request. -/
def ignore (m : Machine) (request : String) : Report Overlong State :=
  ⟨m, .ok m.state, #[.ignored request m.state.name]⟩

/-- One instruction executed. -/
def step (m : Machine) : Report Overlong State :=
  if m.state.isTerminal then m.ignore "step" else settle .ready m.start.cycle

end Machine

end Accumulator
