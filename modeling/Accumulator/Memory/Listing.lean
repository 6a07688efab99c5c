import Accumulator.Memory.Basic
import Accumulator.Text.Line

/-!
# Memory listings

A listing shows a range of memory, one cell in a line: its address, a letter for the region it lies
in and its word, with a dash for a cell that nothing has been written to.  The range is cut off at
the end of memory.  An address below zero in it stands for a cell counted back from the end, as long
as there is one.
-/

namespace Accumulator

/-- Why a listing cannot be made. -/
inductive ListingError
  /-- An address below zero that no cell stands for. -/
  | noCell
  /-- An address so far below zero that it is no index. -/
  | notIndex
  /-- A number that is too long to be written. -/
  | overlong (error : Overlong)
  deriving DecidableEq, Repr

namespace ListingError

/-- The wording of the failure. -/
def message : ListingError → String
  | noCell => "list index out of range"
  | notIndex => notIndexMessage
  | overlong error => error.message

end ListingError

namespace Memory

/-- How many lines a listing has if nothing else is asked for. -/
def listingLength : Int := 16

/-- The word listed under an address: addresses below zero count back from the end. -/
def listed (m : Memory) (address : Int) : Except ListingError Word :=
  let index := if address < 0 then m.cells.size + address else address
  if !isIndex address then .error .notIndex
  else if index < 0 then .error .noCell
  else
    match m.cells[index.toNat]? with
    | none => .error .noCell
    | some word => .ok word

/-- The letter of the region that an address lies in: program or data. -/
def region (address : Int) : String :=
  if address < dataStart then "P" else "D"

/-- One line of a listing. -/
def listingLine (m : Memory) (address : Int) : Except ListingError String := do
  let word ← m.listed address
  let text ← (if word.isEmpty then .ok "-" else word.write).mapError .overlong
  let number ← (Numeral.write address).mapError .overlong
  return Text.flushRight 3 number ++ " " ++ region address ++ "  " ++ text

/-- The lines of `count` cells from an address on. -/
def listingLines (m : Memory) (address : Int) : Nat → Except ListingError (List String)
  | 0 => .ok []
  | count + 1 => do
    let line ← m.listingLine address
    let lines ← m.listingLines (address + 1) count
    return line :: lines

/-- The listing of `length` cells from `start` on. -/
def listing (m : Memory) (start : Int := 0) (length : Int := listingLength) :
    Except ListingError String := do
  let lines ← m.listingLines start (min (start + length) m.size - start).toNat
  return Text.stack lines

end Memory

end Accumulator
