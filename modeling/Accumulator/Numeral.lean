import Accumulator.Text.Character

/-!
# Numerals

Integers are unbounded, but their decimal text is not: a numeral of more than `maxDigits` digits is
neither read nor written.  Leading zeros count as digits and the sign does not.

`read` takes a strict numeral, an optional sign and digits of any script with blanks around them;
`readGrouped` also takes digits joined by single underscores.  `write` is the decimal text of an
integer and `decimal` the same without the limit.
-/

namespace Accumulator

open Text

/-- An integer and its decimal text could not be exchanged, because the text is too long. -/
inductive Overlong
  /-- A text with so many digits was to be read. -/
  | reading (digits : Nat)
  /-- An integer was to be written. -/
  | writing
  deriving DecidableEq, Repr

namespace Numeral

/-- The most digits a numeral may have. -/
def maxDigits : Nat := 4300

/-- The first natural number with more than `maxDigits` digits. -/
def bound : Nat := Nat.pow 10 maxDigits

/-- Whether an integer has a numeral that is short enough to be written. -/
def fits (n : Int) : Bool := n.natAbs < bound

/-- The decimal text of an integer, whatever its length. -/
def decimal (n : Int) : String := n.repr

/-- The decimal text of an integer. -/
def write (n : Int) : Except Overlong String :=
  if fits n then .ok (decimal n) else .error .writing

/-- The number that a sequence of decimal digit values stands for. -/
def value (digits : List Nat) : Nat :=
  digits.foldl (fun n digit => 10 * n + digit) 0

/-- Whether a minus sign stands in front, and what follows the sign. -/
def splitSign : List Char → Bool × List Char
  | '-' :: cs => (true, cs)
  | '+' :: cs => (false, cs)
  | cs => (false, cs)

/-- A number with its sign. -/
def signed (negative : Bool) (n : Nat) : Int :=
  if negative then -(n : Int) else n

/-- The integer that a sign and a sequence of digits stand for; `none` if they are not digits or
there are none. -/
def readDigits (negative : Bool) (cs : List Char) : Except Overlong (Option Int) :=
  match cs.mapM digitValue? with
  | none => .ok none
  | some [] => .ok none
  | some digits =>
    if maxDigits < digits.length then .error (.reading digits.length)
    else .ok (some (signed negative (value digits)))

/-- The integer a strict numeral stands for; `none` if the text is no numeral. -/
def read (s : String) : Except Overlong (Option Int) :=
  let body := splitSign (trimBoth isBlank s.toList)
  readDigits body.1 body.2

/-- A blank that may surround a grouped numeral: any but the separator controls. -/
def isMargin (c : Char) : Bool :=
  isBlank c && !(0x1C ≤ c.toNat && c.toNat ≤ 0x1F)

/-- The integer a numeral stands for in which a single underscore may join two digits; `none` if
the text is no such numeral. -/
def readGrouped (s : String) : Except Overlong (Option Int) :=
  let body := splitSign (trimBoth isMargin s.toList)
  let groups := body.2.splitOn '_'
  if groups.any (·.isEmpty) then .ok none else readDigits body.1 groups.flatten

end Numeral

namespace Overlong

/-- The wording of the failure. -/
def message : Overlong → String
  | reading digits =>
    "Exceeds the limit (" ++ Numeral.decimal Numeral.maxDigits ++
      " digits) for integer string conversion: value has " ++ Numeral.decimal digits ++
      " digits; use sys.set_int_max_str_digits() to increase the limit"
  | writing =>
    "Exceeds the limit (" ++ Numeral.decimal Numeral.maxDigits ++
      " digits) for integer string conversion; " ++
      "use sys.set_int_max_str_digits() to increase the limit"

end Overlong

end Accumulator
