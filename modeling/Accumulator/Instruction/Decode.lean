import Accumulator.Fault
import Accumulator.Instruction.Basic

/-!
# Decoding

`Instruction.decode` reads a memory word as an instruction.  The word must be text; its first token
is the mnemonic and the rest are operands, of which there must be as many as the opcode takes, each
of the right sort.  Nothing is repaired: every word that is no instruction is refused with a cause.
-/

namespace Accumulator

open Text

/-- A letter of the alphabet, or the underscore. -/
def isNameStart (c : Char) : Bool := c.isAlpha || c == '_'

/-- A character that may follow the first one of a name. -/
def isNameRest (c : Char) : Bool := isNameStart c || c.isDigit

/-- Whether a text names a variable: ASCII letters, digits and underscores, no digit in front. -/
def isName (s : String) : Bool :=
  match s.toList with
  | [] => false
  | c :: cs => isNameStart c && cs.all isNameRest

namespace Instruction

/-- The instruction of a mnemonic and its operands.  `address` labels the failure, if any. -/
def ofTokens (address : Option Int) (token : String) (operands : List String) :
    Except Failure Instruction :=
  match Opcode.ofMnemonic? token with
  | none => .error (.ofCause (.unknownOpcode token) address)
  | some opcode =>
    match opcode.pattern, operands with
    | .inherent instruction, [] => .ok instruction
    | .inherent _, operands => .error (.ofCause (.unexpectedOperand opcode operands) address)
    | .symbolic make, [operand] =>
      if isName operand then .ok (make operand)
      else .error (.ofCause (.badSymbol opcode operand) address)
    | .numeric make, [operand] =>
      match Numeral.read operand with
      | .error error => .error (.overlong error)
      | .ok none => .error (.ofCause (.badInteger opcode operand) address)
      | .ok (some n) => .ok (make n)
    | _, operands => .error (.ofCause (.operandCount opcode operands.length) address)

/-- The instruction in a memory word.  `address` labels the failure, if any. -/
def decode (word : Word) (address : Option Int := none) : Except Failure Instruction :=
  match word with
  | .number _ => .error (.ofCause (.notText word) address)
  | .text s =>
    match words s with
    | [] => .error (.ofCause .emptyInstruction address)
    | token :: operands => ofTokens address token operands

end Instruction

end Accumulator
