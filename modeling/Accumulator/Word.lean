import Accumulator.Numeral
import Accumulator.Text.Quoted

/-!
# Memory words

A word is a text (a program line, or the decimal text of a stored integer) or a number.  The number
zero is the word of a cell that nothing has been written to, so that no text, `"0"` included, can be
mistaken for an untouched cell.
-/

namespace Accumulator

/-- What a memory cell holds. -/
inductive Word
  | text (s : String)
  | number (n : Int)
  deriving DecidableEq, Repr

namespace Word

/-- The word of an untouched cell. -/
def empty : Word := .number 0

instance : Inhabited Word := ⟨empty⟩

/-- Whether a word is the one of an untouched cell. -/
def isEmpty (w : Word) : Bool := w == empty

/-- The text of a word in a listing. -/
def write : Word → Except Overlong String
  | text s => .ok s
  | number n => Numeral.write n

/-- A word as messages show it. -/
def shown : Word → String
  | text s => Text.quoted s
  | number n => Numeral.decimal n

/-- The integers that a message about the word writes out. -/
def numerals : Word → List Int
  | text _ => []
  | number n => [n]

end Word

end Accumulator
