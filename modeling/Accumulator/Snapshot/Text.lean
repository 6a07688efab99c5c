import Accumulator.OrderedMap
import Accumulator.Text.Line
import Accumulator.Word

/-!
# Snapshots and their text

A snapshot is what a diagnostic dump shows of a machine: registers and flags, the memory cells that
have been written to, the symbol table, the state and the number of instructions executed.  Its dump
as text has three sections, each a heading with one line an item below it, and leaves out the state
and the number of instructions.
-/

namespace Accumulator

/-- What a dump shows of a machine. -/
structure Snapshot where
  accumulator : Int
  data : Int
  programCounter : Int
  zero : Bool
  overflow : Bool
  /-- The cells that have been written to, by address. -/
  memory : OrderedMap Int Word := .empty
  /-- The data addresses of the declared names. -/
  symbols : OrderedMap String Int := .empty
  /-- The name of the machine's state. -/
  state : String := "READY"
  /-- How many instructions have been executed. -/
  executed : Int := 0
  deriving DecidableEq, Repr

namespace Snapshot

open Text

/-- The section of the registers and flags. -/
def registersText (s : Snapshot) : Except Overlong String := do
  return stack [
    "Registers and Flags:",
    "Accumulator: " ++ (← Numeral.write s.accumulator),
    "Data Register: " ++ (← Numeral.write s.data),
    "Program Counter: " ++ (← Numeral.write s.programCounter),
    "Zero Bit: " ++ Json.truth s.zero,
    "Overflow Bit: " ++ Json.truth s.overflow]

/-- The line of a memory cell. -/
def cellLine (entry : Int × Word) : Except Overlong String := do
  return "Address " ++ (← Numeral.write entry.1) ++ ": " ++ (← entry.2.write)

/-- The section of the memory cells. -/
def memoryText (s : Snapshot) : Except Overlong String := do
  return stack ("Memory:" :: (← s.memory.toList.mapM cellLine))

/-- The line of a name. -/
def symbolLine (entry : String × Int) : Except Overlong String := do
  return entry.1 ++ ": " ++ (← Numeral.write entry.2)

/-- The section of the symbol table. -/
def symbolsText (s : Snapshot) : Except Overlong String := do
  return stack ("Symbols Table(Symbol:Address):" :: (← s.symbols.toList.mapM symbolLine))

/-- The dump of a snapshot as text. -/
def text (s : Snapshot) : Except Overlong String := do
  return stack [← s.registersText, ← s.memoryText, ← s.symbolsText]

end Snapshot

end Accumulator
