import Accumulator.Snapshot.Text
import Accumulator.Text.Quoted

/-!
# The JSON dump

The dump of a snapshot as JSON text.  Memory and symbol table are objects whose members keep their
order; a text word is a string and a number word a number, so the two are told apart.
-/

namespace Accumulator.Snapshot

open Text

/-- The JSON text of a memory word. -/
def wordJson : Word → Except Overlong String
  | .text s => .ok (Json.string s)
  | .number n => Numeral.write n

/-- The member of a memory cell. -/
def cellMember (entry : Int × Word) : Except Overlong String := do
  return Json.member (← Numeral.write entry.1) (← wordJson entry.2)

/-- The member of a name. -/
def symbolMember (entry : String × Int) : Except Overlong String := do
  return Json.member entry.1 (← Numeral.write entry.2)

/-- The dump of a snapshot as JSON text. -/
def json (s : Snapshot) : Except Overlong String := do
  let registers := Json.object 1 [
    Json.member "accumulator" (← Numeral.write s.accumulator),
    Json.member "data_register" (← Numeral.write s.data),
    Json.member "program_counter" (← Numeral.write s.programCounter)]
  let flags := Json.object 1 [
    Json.member "zero" (Json.truth s.zero),
    Json.member "overflow" (Json.truth s.overflow)]
  return Json.object 0 [
    Json.member "state" (Json.string s.state),
    Json.member "registers" registers,
    Json.member "flags" flags,
    Json.member "instructions_executed" (← Numeral.write s.executed),
    Json.member "memory" (Json.object 1 (← s.memory.toList.mapM cellMember)),
    Json.member "symbols" (Json.object 1 (← s.symbols.toList.mapM symbolMember))]

end Accumulator.Snapshot
