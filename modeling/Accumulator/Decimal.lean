import Accumulator.Text.Line

/-!
# Decimal fractions

A real number given by its decimal digits: `digits · 10 ^ exponent` with a sign.  `text` writes it
positionally with a point and at least one place, from a ten-thousandth up to sixteen places before
the point, and otherwise with one digit before the point and a power of ten.
-/

namespace Accumulator

/-- The number `± digits · 10 ^ exponent`. -/
structure Decimal where
  negative : Bool
  digits : Nat
  exponent : Int
  deriving DecidableEq, Repr

namespace Decimal

/-- Whether the number is zero, of either sign. -/
def isZero (d : Decimal) : Bool := d.digits == 0

/-- The significant digits of the number: those of `digits` without the zeros at the end. -/
def significant (d : Decimal) : List Char :=
  match ((Nat.toDigits 10 d.digits).reverse.dropWhile (· == '0')).reverse with
  | [] => ['0']
  | cs => cs

/-- Where the point stands, counted from the front of the significant digits. -/
def point (d : Decimal) : Int :=
  if d.isZero then 1 else (Nat.toDigits 10 d.digits).length + d.exponent

/-- Digits with the point after the first `places`, and a zero on a side that would be bare. -/
def positional (cs : List Char) (places : Int) : List Char :=
  if places ≤ 0 then ['0', '.'] ++ List.replicate (-places).toNat '0' ++ cs
  else
    let front := cs.take places.toNat
    let back := cs.drop places.toNat
    front ++ List.replicate (places.toNat - front.length) '0' ++
      '.' :: (if back = [] then ['0'] else back)

/-- Digits with the point after the first and the power of ten, of at least two digits, behind. -/
def scientific (cs : List Char) (power : Int) : List Char :=
  let digits := Nat.toDigits 10 power.natAbs
  cs.take 1 ++ (if cs.length ≤ 1 then [] else '.' :: cs.drop 1) ++ 'e' ::
    (if power < 0 then '-' else '+') :: (List.replicate (2 - digits.length) '0' ++ digits)

/-- The number as a text. -/
def text (d : Decimal) : String :=
  let places := d.point
  let body :=
    if -4 < places && places ≤ 16 then positional d.significant places
    else scientific d.significant (places - 1)
  String.ofList (if d.negative then '-' :: body else body)

end Decimal

end Accumulator
