/-!
# Arithmetic

Addition and subtraction of unbounded integers with two flags: whether the result is zero and
whether it leaves the signed 32-bit range.  The result itself is exact; overflow is judged on it and
never wraps it.
-/

namespace Accumulator

/-- The least signed 32-bit integer. -/
def int32Min : Int := -2147483648

/-- The greatest signed 32-bit integer. -/
def int32Max : Int := 2147483647

/-- Whether an integer lies in the signed 32-bit range. -/
def inInt32 (n : Int) : Bool := int32Min ≤ n && n ≤ int32Max

theorem inInt32_iff {n : Int} : inInt32 n = true ↔ -2147483648 ≤ n ∧ n ≤ 2147483647 := by
  rw [inInt32, Bool.and_eq_true, decide_eq_true_iff, decide_eq_true_iff, int32Min, int32Max]

theorem not_inInt32_iff {n : Int} :
    (!inInt32 n) = true ↔ n < -2147483648 ∨ 2147483647 < n := by
  rw [Bool.not_eq_true', Bool.eq_false_iff, ne_eq, inInt32_iff]
  omega

/-- The result of an operation with its flags. -/
structure Outcome where
  value : Int
  zero : Bool
  overflow : Bool
  deriving DecidableEq, Repr

namespace Outcome

/-- A result with the flags that it sets. -/
def ofValue (n : Int) : Outcome := ⟨n, n == 0, !inInt32 n⟩

/-- `a + b` with its flags. -/
def add (a b : Int) : Outcome := ofValue (a + b)

/-- `a - b` with its flags. -/
def sub (a b : Int) : Outcome := ofValue (a - b)

end Outcome

end Accumulator
