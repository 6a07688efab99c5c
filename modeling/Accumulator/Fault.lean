import Accumulator.Datum
import Accumulator.Instruction.Opcode
import Accumulator.Text.Utf8
import Accumulator.Word

/-!
# Faults

A fault ends the work that met it: a machine stops, a program is not loaded.  Each fault has a
`Cause`, which says what went wrong with the data at hand, and may name the address it belongs to.
The cause determines the kind of the fault and the wording of its message.

A message writes integers out, and an integer may be too long for that.  `Failure.ofCause` therefore
makes a fault only if its message can be written, and the failure of the numeral otherwise.
-/

namespace Accumulator

/-- The kinds of fault. -/
inductive FaultKind
  /-- A fault of no particular kind. -/
  | general
  /-- An address outside memory, or no address at all. -/
  | outOfBounds
  /-- More program lines than memory cells. -/
  | programTooLarge
  /-- A name that was never declared. -/
  | unknownSymbol
  /-- No data memory left for a declaration. -/
  | addressSpaceExhausted
  /-- A word that does not begin with an opcode. -/
  | invalidOpcode
  /-- An operand too many, too few or of the wrong sort. -/
  | malformedOperand
  /-- A data word that is not an integer. -/
  | corruptData
  /-- A program file that is missing. -/
  | fileNotFound
  /-- A program file that is not UTF-8 text. -/
  | fileNotReadable
  deriving DecidableEq, Repr

namespace FaultKind

/-- The name under which a kind is reported.  A program that is too large is reported as what it is
a case of. -/
def label : FaultKind → String
  | general => "SALError"
  | outOfBounds | programTooLarge => "OutOfBounds"
  | unknownSymbol => "UnknownSymbol"
  | addressSpaceExhausted => "AddressSpaceExhausted"
  | invalidOpcode => "InvalidOpcode"
  | malformedOperand => "MalformedOperand"
  | corruptData => "CorruptData"
  | fileNotFound => "FileNotFound"
  | fileNotReadable => "FileNotReadable"

/-- A kind followed by the kinds it is a case of, the most general last. -/
def lineage : FaultKind → List FaultKind
  | general => [general]
  | programTooLarge => [programTooLarge, outOfBounds, general]
  | kind => [kind, general]

end FaultKind

/-- What went wrong. -/
inductive Cause
  /-- Something other than an integer was given for an address. -/
  | notAnAddress (offered : Datum)
  /-- An address outside a memory of `size` cells. -/
  | outsideMemory (address size : Int)
  /-- A program of `lines` lines for a memory of `size` cells. -/
  | programTooLarge (lines : Nat) (size : Int)
  /-- A name without a declaration. -/
  | unknownSymbol (name : String)
  /-- A declaration after `allocated` others have used up data memory. -/
  | dataMemoryFull (name : String) (allocated : Int)
  /-- A word that is not text was to be executed. -/
  | notText (word : Word)
  /-- A word without tokens was to be executed. -/
  | emptyInstruction
  /-- The first token is no mnemonic. -/
  | unknownOpcode (token : String)
  /-- Operands behind an opcode that takes none. -/
  | unexpectedOperand (opcode : Opcode) (operands : List String)
  /-- No operand, or several, behind an opcode that takes one. -/
  | operandCount (opcode : Opcode) (found : Nat)
  /-- An operand that is no name. -/
  | badSymbol (opcode : Opcode) (operand : String)
  /-- An operand that is no integer. -/
  | badInteger (opcode : Opcode) (operand : String)
  /-- A data word that is not an integer was to be loaded. -/
  | corruptData (word : Word)
  /-- The program file is missing. -/
  | fileNotFound (path : String)
  /-- The program file is not UTF-8 text. -/
  | notUtf8 (file : String) (error : Text.Utf8Error)
  /-- A fault stated by whoever raised it. -/
  | stated (kind : FaultKind) (text : String)

namespace Cause

open Numeral (decimal)

/-- The kind of fault a cause makes. -/
def kind : Cause → FaultKind
  | notAnAddress _ | outsideMemory _ _ => .outOfBounds
  | programTooLarge _ _ => .programTooLarge
  | unknownSymbol _ => .unknownSymbol
  | dataMemoryFull _ _ => .addressSpaceExhausted
  | notText _ | emptyInstruction | unknownOpcode _ => .invalidOpcode
  | unexpectedOperand _ _ | operandCount _ _ | badSymbol _ _ | badInteger _ _ => .malformedOperand
  | corruptData _ => .corruptData
  | fileNotFound _ => .fileNotFound
  | notUtf8 _ _ => .fileNotReadable
  | stated kind _ => kind

/-- The wording of a cause. -/
def wording : Cause → String
  | notAnAddress offered => "Address must be an integer, got " ++ offered.shown
  | outsideMemory address size =>
    "Address " ++ decimal address ++ " outside memory [0, " ++ decimal (size - 1) ++ "]"
  | programTooLarge lines size =>
    "Program has " ++ decimal lines ++ " lines, memory holds " ++ decimal size
  | unknownSymbol name => "Unknown symbol: '" ++ name ++ "'"
  | dataMemoryFull name allocated =>
    "No data memory left to declare '" ++ name ++ "' (" ++ decimal allocated ++
      " symbols allocated)"
  | notText word => "Not an instruction: " ++ word.shown
  | emptyInstruction => "Empty instruction"
  | unknownOpcode token => "Unknown opcode: " ++ token
  | unexpectedOperand opcode operands =>
    opcode.mnemonic ++ " takes no operand, got: " ++ " ".intercalate operands
  | operandCount opcode found =>
    opcode.mnemonic ++ " takes exactly one operand, got " ++ decimal found
  | badSymbol opcode operand => opcode.mnemonic ++ ": bad symbol name '" ++ operand ++ "'"
  | badInteger opcode operand =>
    let what := if opcode.operandKind = .immediate then "literal" else "address"
    opcode.mnemonic ++ ": " ++ what ++ " is not an integer: '" ++ operand ++ "'"
  | corruptData word => "Not an integer: " ++ word.shown
  | fileNotFound path => "File '" ++ path ++ "' not found."
  | notUtf8 file error =>
    file ++ ": not UTF-8 text (byte " ++ decimal error.offset ++ ": " ++ error.defect.reason ++ ")"
  | stated _ text => text

/-- The integers that the wording writes out. -/
def numerals : Cause → List Int
  | notAnAddress offered => offered.numerals
  | outsideMemory address size => [address, size - 1]
  | programTooLarge lines size => [(lines : Int), size]
  | dataMemoryFull _ allocated => [allocated]
  | notText word | corruptData word => word.numerals
  | operandCount _ found => [(found : Int)]
  | notUtf8 _ error => [(error.offset : Int)]
  | _ => []

end Cause

/-- A cause, with the address it belongs to where there is one. -/
structure Fault where
  cause : Cause
  address : Option Int := none

namespace Fault

/-- The kind of a fault. -/
def kind (fault : Fault) : FaultKind := fault.cause.kind

/-- The message of a fault: its address, if any, and the wording of its cause. -/
def message (fault : Fault) : String :=
  match fault.address with
  | none => fault.cause.wording
  | some address => "Address " ++ Numeral.decimal address ++ ": " ++ fault.cause.wording

/-- Whether every integer in the message is short enough to be written. -/
def isWritable (fault : Fault) : Bool :=
  (fault.address.toList ++ fault.cause.numerals).all Numeral.fits

end Fault

/-- Why an operation did not come to its end: it met a fault, or a numeral was too long. -/
inductive Failure
  | fault (fault : Fault)
  | overlong (error : Overlong)

/-- The failure that a cause makes: a fault, if its message can be written. -/
def Failure.ofCause (cause : Cause) (address : Option Int := none) : Failure :=
  if Fault.isWritable ⟨cause, address⟩ then .fault ⟨cause, address⟩ else .overlong .writing

end Accumulator
