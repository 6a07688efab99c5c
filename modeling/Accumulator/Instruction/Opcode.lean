import Accumulator.Text.Quoted

/-!
# Opcodes

The eleven opcodes of the machine, their mnemonics and the kind of operand each takes.  `all` lists
them in the order of the instruction table: data, control flow, arithmetic, control.
-/

namespace Accumulator

/-- What stands behind an opcode. -/
inductive OperandKind
  /-- Nothing. -/
  | inherent
  /-- The name of a variable. -/
  | symbol
  /-- An integer that is the operand itself. -/
  | immediate
  /-- The address of a program word. -/
  | address
  deriving DecidableEq, Repr

/-- The name of an operand kind in the instruction table. -/
def OperandKind.name : OperandKind → String
  | inherent => "INH"
  | symbol => "SYM"
  | immediate => "IMM"
  | address => "ADDR"

/-- The opcodes. -/
inductive Opcode
  | dec
  | lda
  | ldi
  | str
  | xch
  | jmp
  | jzs
  | jvs
  | add
  | sub
  | hlt
  deriving DecidableEq, Repr

namespace Opcode

/-- The opcodes in the order of the instruction table. -/
def all : List Opcode := [dec, lda, ldi, str, xch, jmp, jzs, jvs, add, sub, hlt]

theorem mem_all (op : Opcode) : op ∈ all := by
  cases op <;> decide

/-- The word that names an opcode in program text. -/
def mnemonic : Opcode → String
  | dec => "DEC"
  | lda => "LDA"
  | ldi => "LDI"
  | str => "STR"
  | xch => "XCH"
  | jmp => "JMP"
  | jzs => "JZS"
  | jvs => "JVS"
  | add => "ADD"
  | sub => "SUB"
  | hlt => "HLT"

/-- The kind of operand an opcode takes. -/
def operandKind : Opcode → OperandKind
  | dec | lda | str => .symbol
  | ldi => .immediate
  | jmp | jzs | jvs => .address
  | xch | add | sub | hlt => .inherent

/-- The opcode of a mnemonic; letter case counts. -/
def ofMnemonic? (s : String) : Option Opcode :=
  all.find? fun op => op.mnemonic == s

/-- The wording of the refusal of a text that is no mnemonic. -/
def unknownMessage (s : String) : String := Text.quoted s ++ " is not a valid Opcode"

end Opcode

end Accumulator
