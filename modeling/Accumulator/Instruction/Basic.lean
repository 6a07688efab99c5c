import Accumulator.Instruction.Opcode
import Accumulator.Numeral

/-!
# Instructions

An `Instruction` carries exactly the operand its opcode takes.  Its `Form` is the opcode with an
operand of any sort or none, which is what instruction text is made of; not every form is an
instruction.
-/

namespace Accumulator

/-- An instruction with its operand. -/
inductive Instruction
  /-- Bind a name to the next free data address. -/
  | declare (name : String)
  /-- Load the accumulator from a variable. -/
  | load (name : String)
  /-- Load the accumulator with an integer. -/
  | loadImmediate (value : Int)
  /-- Store the accumulator in a variable. -/
  | store (name : String)
  /-- Swap the accumulator and the data register. -/
  | exchange
  /-- Go on at an address. -/
  | jump (target : Int)
  /-- Go on at an address if the last result was zero. -/
  | jumpIfZero (target : Int)
  /-- Go on at an address if the last result overflowed. -/
  | jumpIfOverflow (target : Int)
  /-- Add the data register to the accumulator. -/
  | add
  /-- Subtract the data register from the accumulator. -/
  | subtract
  /-- End the program. -/
  | halt
  deriving DecidableEq, Repr

/-- An operand by itself. -/
inductive Operand
  | symbol (name : String)
  | integer (n : Int)
  deriving DecidableEq, Repr

/-- The integers that an operand writes out. -/
def Operand.numerals : Operand → List Int
  | symbol _ => []
  | integer n => [n]

/-- The text of an operand. -/
def Operand.text : Operand → String
  | symbol name => name
  | integer n => Numeral.decimal n

/-- An opcode with an operand or without, whether or not the two go together. -/
structure Form where
  opcode : Opcode
  operand : Option Operand
  deriving DecidableEq, Repr

namespace Form

/-- The text of a form: the mnemonic and, after a space, the operand. -/
def text (form : Form) : String :=
  match form.operand with
  | none => form.opcode.mnemonic
  | some operand => form.opcode.mnemonic ++ " " ++ operand.text

/-- The text of a form whose operand is short enough to be written. -/
def write (form : Form) : Except Overlong String :=
  if (form.operand.toList.flatMap Operand.numerals).all Numeral.fits then .ok form.text
  else .error .writing

end Form

namespace Instruction

/-- The opcode and operand of an instruction. -/
def form : Instruction → Form
  | declare name => ⟨.dec, some (.symbol name)⟩
  | load name => ⟨.lda, some (.symbol name)⟩
  | loadImmediate value => ⟨.ldi, some (.integer value)⟩
  | store name => ⟨.str, some (.symbol name)⟩
  | exchange => ⟨.xch, none⟩
  | jump target => ⟨.jmp, some (.integer target)⟩
  | jumpIfZero target => ⟨.jzs, some (.integer target)⟩
  | jumpIfOverflow target => ⟨.jvs, some (.integer target)⟩
  | add => ⟨.add, none⟩
  | subtract => ⟨.sub, none⟩
  | halt => ⟨.hlt, none⟩

/-- The text of an instruction. -/
def text (instruction : Instruction) : String := instruction.form.text

/-- Whether an instruction ends the program. -/
def halts : Instruction → Bool
  | halt => true
  | _ => false

end Instruction

/-- How an opcode and what stands behind it make an instruction. -/
inductive Opcode.Pattern
  | inherent (instruction : Instruction)
  | symbolic (make : String → Instruction)
  | numeric (make : Int → Instruction)

/-- The instructions of an opcode. -/
def Opcode.pattern : Opcode → Opcode.Pattern
  | .dec => .symbolic .declare
  | .lda => .symbolic .load
  | .ldi => .numeric .loadImmediate
  | .str => .symbolic .store
  | .xch => .inherent .exchange
  | .jmp => .numeric .jump
  | .jzs => .numeric .jumpIfZero
  | .jvs => .numeric .jumpIfOverflow
  | .add => .inherent .add
  | .sub => .inherent .subtract
  | .hlt => .inherent .halt

end Accumulator
