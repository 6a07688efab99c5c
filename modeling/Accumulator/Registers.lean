import Accumulator.Arithmetic
import Accumulator.Numeral
import Accumulator.Text.Line

/-!
# Registers

The accumulator A, the data register B, the program counter, the two flags of the last arithmetic
result and the number of instructions executed.  Registers hold unbounded integers.
-/

namespace Accumulator

/-- The register file. -/
structure Registers where
  /-- Register A. -/
  accumulator : Int := 0
  /-- Register B. -/
  data : Int := 0
  /-- The address of the next instruction. -/
  programCounter : Int := 0
  /-- Whether the last arithmetic result was zero. -/
  zero : Bool := false
  /-- Whether the last arithmetic result left the signed 32-bit range. -/
  overflow : Bool := false
  /-- How many instructions have been executed. -/
  executed : Int := 0
  deriving DecidableEq, Repr

/-- The registers that hold integers. -/
inductive NumberRegister
  | accumulator
  | data
  | programCounter
  | executed
  deriving DecidableEq, Repr

/-- The registers that hold flags. -/
inductive FlagRegister
  | zero
  | overflow
  deriving DecidableEq, Repr

/-- The registers by which a caller can set the machine. -/
inductive Register
  | number (r : NumberRegister)
  | flag (r : FlagRegister)
  deriving DecidableEq, Repr

namespace Register

/-- The registers with the names under which callers know them. -/
def names : List (String × Register) := [
  ("accumulator", number .accumulator),
  ("data_register", number .data),
  ("program_counter", number .programCounter),
  ("zero_bit", flag .zero),
  ("overflow_bit", flag .overflow),
  ("instructions_executed", number .executed)]

/-- The register of a name. -/
def ofName? (name : String) : Option Register := names.lookup name

/-- The wording of the refusal of a name that no register has. -/
def unknownMessage (name : String) : String :=
  "'Registers' object has no attribute '" ++ name ++ "'"

end Register

namespace Registers

/-- The registers of a machine that has just been switched on. -/
def initial : Registers := {}

instance : Inhabited Registers := ⟨initial⟩

/-- A and B swapped. -/
def exchange (r : Registers) : Registers :=
  { r with accumulator := r.data, data := r.accumulator }

/-- Both flags set anew. -/
def setFlags (r : Registers) (zero overflow : Bool) : Registers :=
  { r with zero, overflow }

/-- An arithmetic result in the accumulator, and its flags. -/
def accept (r : Registers) (outcome : Outcome) : Registers :=
  { r with accumulator := outcome.value }.setFlags outcome.zero outcome.overflow

/-- One register set to an integer. -/
def setNumber (r : Registers) (value : Int) : NumberRegister → Registers
  | .accumulator => { r with accumulator := value }
  | .data => { r with data := value }
  | .programCounter => { r with programCounter := value }
  | .executed => { r with executed := value }

/-- One flag set. -/
def setFlag (r : Registers) (value : Bool) : FlagRegister → Registers
  | .zero => { r with zero := value }
  | .overflow => { r with overflow := value }

/-- One more instruction executed. -/
def count (r : Registers) : Registers :=
  { r with executed := r.executed + 1 }

/-- The program counter moved to an address. -/
def goTo (r : Registers) (target : Int) : Registers :=
  { r with programCounter := target }

/-- The program counter moved to the next address. -/
def goOn (r : Registers) : Registers :=
  r.goTo (r.programCounter + 1)

/-- The flags in two characters, a point for a flag that is not set. -/
def flagText (r : Registers) : String :=
  String.ofList [if r.zero then 'Z' else '.', if r.overflow then 'V' else '.']

/-- The registers in one line. -/
def display (r : Registers) : Except Overlong String := do
  let pc ← Numeral.write r.programCounter
  let a ← Numeral.write r.accumulator
  let b ← Numeral.write r.data
  return "PC=" ++ Text.flushRight 3 pc ++ " A=" ++ a ++ " B=" ++ b ++ " [" ++ r.flagText ++ "]"

end Registers

end Accumulator
