import Accumulator.Decimal
import Accumulator.Numeral
import Accumulator.Text.Quoted

/-!
# Data from outside

A caller may offer any datum where an address or a flag is wanted.  A datum that is no address is
refused with a message that shows it (`shown`), and a datum given for a flag counts as set unless it
is null, false, zero or empty (`isSet`).
-/

namespace Accumulator

open Text

/-- A datum of no fixed type. -/
inductive Datum
  | null
  | truth (b : Bool)
  | integer (n : Int)
  | real (d : Decimal)
  | text (s : String)
  | list (items : List Datum)
  | record (fields : List (String × Datum))

namespace Datum

instance : Inhabited Datum := ⟨null⟩

/-- Whether a datum sets the flag it is given for. -/
def isSet : Datum → Bool
  | null => false
  | truth b => b
  | integer n => n != 0
  | real d => !d.isZero
  | text s => !s.isEmpty
  | list items => !items.isEmpty
  | record fields => !fields.isEmpty

mutual

/-- A datum as messages show it. -/
def shown : Datum → String
  | null => "None"
  | truth true => "True"
  | truth false => "False"
  | integer n => Numeral.decimal n
  | real d => d.text
  | text s => quoted s
  | list items => "[" ++ ", ".intercalate (shownItems items) ++ "]"
  | record fields => "\x7b" ++ ", ".intercalate (shownFields fields) ++ "\x7d"

/-- The items of a list as messages show them. -/
def shownItems : List Datum → List String
  | [] => []
  | item :: items => item.shown :: shownItems items

/-- The fields of a record as messages show them. -/
def shownFields : List (String × Datum) → List String
  | [] => []
  | (name, item) :: fields => (quoted name ++ ": " ++ item.shown) :: shownFields fields

end

mutual

/-- The integers that a message about the datum writes out. -/
def numerals : Datum → List Int
  | integer n => [n]
  | list items => numeralsItems items
  | record fields => numeralsFields fields
  | _ => []

/-- The integers in the items of a list. -/
def numeralsItems : List Datum → List Int
  | [] => []
  | item :: items => item.numerals ++ numeralsItems items

/-- The integers in the fields of a record. -/
def numeralsFields : List (String × Datum) → List Int
  | [] => []
  | (_, item) :: fields => item.numerals ++ numeralsFields fields

end

end Datum

end Accumulator
