import Accumulator.Fault
import Accumulator.OrderedMap

/-!
# Memory

A memory is a row of cells numbered from zero, each of which holds a word.  Every access by address
is checked: an address below zero or past the last cell is refused, and nothing wraps around.  A
program is loaded as a whole or not at all.

A memory may be asked for with a size below zero.  It then has no cells, and its messages speak of
the size that was asked for.  `new` refuses the sizes of which no memory can be made: those that are
no index, and those of more cells than there is room for.  How much room there is depends on where
the memory is made, and is a parameter.
-/

namespace Accumulator

/-- The greatest integer that can number the cells of a row. -/
def maxIndex : Int := 9223372036854775807

/-- The integers that can number the cells of a row are those of 64 bits with a sign. -/
def isIndex (n : Int) : Bool := -9223372036854775808 ≤ n && n ≤ maxIndex

/-- What can be wrong with the size of a memory. -/
inductive SizeError
  /-- The size is no index. -/
  | notIndex
  /-- There is no room for so many cells. -/
  | noRoom
  /-- The size is below zero and counts nothing. -/
  | negative
  deriving DecidableEq, Repr

/-- What is said of an integer that should be an index and is none. -/
def notIndexMessage : String := "cannot fit 'int' into an index-sized integer"

/-- The wording of the refusal. -/
def SizeError.message : SizeError → String
  | notIndex => notIndexMessage
  | noRoom => ""
  | negative => "__len__() should return >= 0"

/-- Instructions and data in one row of cells. -/
structure Memory where
  /-- The size that the memory was asked for. -/
  size : Int
  cells : Array Word
  size_cells : cells.size = size.toNat

namespace Memory

/-- The number of cells of a memory unless another is asked for. -/
def standardSize : Int := 256

/-- The address at which data begins; the cells before it are for the program. -/
def dataStart : Int := 128

/-- A memory whose cells nothing has been written to. -/
def blank (size : Int) : Memory where
  size
  cells := Array.replicate size.toNat .empty
  size_cells := by simp

instance : Inhabited Memory := ⟨blank standardSize⟩

/-- The number of cells for which there is room unless another is stated. -/
def standardRoom : Int := 68719476736

/-- Why there is no memory of a size where there is room for so many cells, if there is none. -/
def sizeError? (size room : Int) : Option SizeError :=
  if !isIndex size then some .notIndex
  else if room < size then some .noRoom
  else none

/-- A memory of a size, if there can be one where there is room for so many cells. -/
def new (size : Int) (room : Int := standardRoom) : Except SizeError Memory :=
  match sizeError? size room with
  | some error => .error error
  | none => .ok (blank size)

/-- The number of cells of a memory whose size is one. -/
def count (m : Memory) : Except SizeError Nat :=
  if m.size < 0 then .error .negative else .ok m.cells.size

/-- The same memory with every cell untouched. -/
def clear (m : Memory) : Memory := blank m.size

/-- The word at an address. -/
def read (m : Memory) (address : Int) : Except Failure Word :=
  if h : 0 ≤ address ∧ address < m.size then
    have : address.toNat < m.cells.size := by rw [m.size_cells]; omega
    .ok m.cells[address.toNat]
  else
    .error (.ofCause (.outsideMemory address m.size))

/-- The memory with a word put at an address. -/
def write (m : Memory) (address : Int) (word : Word) : Except Failure Memory :=
  if h : 0 ≤ address ∧ address < m.size then
    have : address.toNat < m.cells.size := by rw [m.size_cells]; omega
    .ok { m with
      cells := m.cells.set address.toNat word
      size_cells := by rw [Array.size_set, m.size_cells] }
  else
    .error (.ofCause (.outsideMemory address m.size))

/-- The memory with the words of a program in its first cells. -/
def load (m : Memory) (program : List Word) : Except Failure Memory :=
  if h : (program.length : Int) ≤ m.size then
    .ok { m with
      cells := program.toArray ++ m.cells.extract program.length
      size_cells := by
        have := m.size_cells
        simp only [Array.size_append, List.size_toArray, Array.size_extract]
        omega }
  else
    .error (.ofCause (.programTooLarge program.length m.size))

/-- The words of `words` that are not those of an untouched cell, each under its place in the row,
which begins at `address`. -/
def written (address : Nat) : List Word → List (Int × Word)
  | [] => []
  | word :: words =>
    if word.isEmpty then written (address + 1) words
    else (address, word) :: written (address + 1) words

theorem le_of_mem_written {address : Nat} {words : List Word} {entry : Int × Word}
    (h : entry ∈ written address words) : (address : Int) ≤ entry.1 := by
  induction words generalizing address with
  | nil => simp [written] at h
  | cons word words ih =>
    unfold written at h
    split at h
    · have := ih h
      omega
    · rcases List.mem_cons.1 h with rfl | h
      · simp
      · have := ih h
        omega

theorem nodup_written (address : Nat) (words : List Word) :
    ((written address words).map Prod.fst).Nodup := by
  induction words generalizing address with
  | nil => simp [written]
  | cons word words ih =>
    unfold written
    split
    · exact ih _
    · rw [List.map_cons, List.nodup_cons]
      refine ⟨fun h => ?_, ih _⟩
      obtain ⟨entry, hmem, heq⟩ := List.mem_map.1 h
      have := le_of_mem_written hmem
      rw [heq] at this
      simp only [Int.natCast_add, Int.cast_ofNat_Int] at this
      omega

/-- The addresses and words of the cells that have been written to, in order of address. -/
def used (m : Memory) : OrderedMap Int Word :=
  ⟨written 0 m.cells.toList, nodup_written 0 _⟩

/-- An address given as a datum; only an integer is one. -/
def address? : Datum → Except Failure Int
  | .integer n => .ok n
  | datum => .error (.ofCause (.notAnAddress datum))

end Memory

end Accumulator
