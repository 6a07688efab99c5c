import Accumulator.Machine.Cycle

/-!
# Access from outside

Between instructions a machine may be looked into and changed by hand: its trace, its memory, its
registers and its symbol table.  None of this changes the state the machine is in.
-/

namespace Accumulator.Machine

/-! ### The trace -/

/-- The machine with tracing switched on or off. -/
def setTracing (m : Machine) (on : Bool) : Machine := { m with tracing := on }

/-- The trace, one line below the other. -/
def traceText (m : Machine) : String := Text.stack m.trace.toList

/-- The machine with an empty trace. -/
def clearTrace (m : Machine) : Machine := { m with trace := #[] }

/-! ### Memory, registers and symbols -/

/-- The machine with a word put at an address. -/
def write (m : Machine) (address : Int) (word : Word) : Except Failure Machine := do
  let memory ← m.memory.write address word
  return { m with memory }

/-- The machine with every memory cell untouched. -/
def clearMemory (m : Machine) : Machine := { m with memory := m.memory.clear }

/-- The machine with a register set to an integer. -/
def setNumber (m : Machine) (value : Int) (register : NumberRegister) : Machine :=
  { m with registers := m.registers.setNumber value register }

/-- The machine with a flag set. -/
def setFlag (m : Machine) (value : Bool) (register : FlagRegister) : Machine :=
  { m with registers := m.registers.setFlag value register }

/-- A name declared; the answer is its address. -/
def declare (m : Machine) (name : String) : Report Failure Int :=
  match m.symbols.declare name with
  | .error failure => ⟨m, .error failure, #[]⟩
  | .ok symbols => ⟨{ m with symbols }, .ok m.symbols.next, m.sideNotes (.declare name)⟩

end Accumulator.Machine
