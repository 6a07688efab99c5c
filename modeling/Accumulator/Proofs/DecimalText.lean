import Accumulator.Proofs.SignedDigits
import Accumulator.Proofs.Stripping

/-!
# Decimal text and integers

`write` and `read` are inverse to each other as far as they can be.  The decimal text of an integer
is read back as that integer, whatever blanks stand around it (`read_surrounded_decimal`), and a
text is read as an integer exactly if signed digits are left of it when it is stripped, not too many
of them, that denote the integer (`reads_signed_digits`).

Signed digits are also grouped numerals, with a single group: the reader that lets underscores join
digits finds the same in them (`readGrouped_of_signedDigits`).
-/

namespace Accumulator.Numeral

open Text

variable {cs : List Char} {negative : Bool} {digits : List Nat}

/-! ### Blanks around a numeral -/

/-- Blanks around a text do not count. -/
theorem read_surrounded {front back : List Char} (hfront : ∀ c ∈ front, isBlank c)
    (hback : ∀ c ∈ back, isBlank c) (s : String) :
    read (String.ofList (front ++ s.toList ++ back)) = read s := by
  rw [read, read, String.toList_ofList, trimBoth_append_append_of_class hfront hback]

/-- **Round trip**: an integer is read back from its decimal text with blanks around it. -/
theorem read_surrounded_decimal {n : Int} (h : fits n) {front back : List Char}
    (hfront : ∀ c ∈ front, isBlank c) (hback : ∀ c ∈ back, isBlank c) :
    read (String.ofList (front ++ (decimal n).toList ++ back)) = .ok (some n) := by
  rw [read_surrounded hfront hback, read_decimal h]

/-! ### Groups of digits -/

/-- There is no margin left when the blanks are taken off. -/
theorem trimBoth_isMargin_strip (s : String) :
    trimBoth isMargin (strip s).toList = (strip s).toList := by
  have hmargin : ∀ c, isBlank c = false → isMargin c = false := by
    intro c hc
    rw [isMargin, hc, Bool.false_and]
  obtain ⟨hfirst, hlast⟩ := ends_trimBoth isBlank s.toList
  rw [toList_strip]
  exact trimBoth_eq_self_iff.2
    ⟨fun c hc => hmargin c (hfirst c hc), fun c hc => hmargin c (hlast c hc)⟩

/-- An underscore is no digit, so a row of digits is one group. -/
theorem splitOn_underscore_of_isRow (h : IsRow cs digits) : cs.splitOn '_' = [cs] := by
  obtain ⟨-, hdigits⟩ := h
  refine List.splitOn_eq_singleton fun hmem => ?_
  have hvalue : ∀ c ∈ cs, (digitValue? c).isSome := by
    refine ((List.forall₂_and_left cs digits).1 (hdigits.imp fun c d hc => ⟨?_, hc⟩)).1
    rw [hc, Option.isSome_some]
  have hunderscore : digitValue? '_' = none := by decide
  simpa [hunderscore] using hvalue '_' hmem

/-- **A stripped text of signed digits is a grouped numeral**, and stands for the same integer or is
as much too long. -/
theorem readGrouped_of_signedDigits {s : String}
    (h : SignedDigits (strip s).toList negative digits) : readGrouped (strip s) = read s := by
  obtain ⟨-, hrow⟩ := signedDigits_iff.1 h
  have hgroups := splitOn_underscore_of_isRow hrow
  have hnonempty : (splitSign (strip s).toList).2.isEmpty = false := by
    rw [List.isEmpty_eq_false_iff]
    exact hrow.1
  unfold readGrouped
  dsimp only
  rw [trimBoth_isMargin_strip, hgroups, List.any_cons, List.any_nil, hnonempty,
    if_neg (by decide), List.flatten_singleton, toList_strip, read]

/-! ### Which texts are integers -/

/-- **Integers and their decimal texts correspond.**  The decimal text of an integer is written if
it has no more than `maxDigits` digits, and is then read as that integer, also with blanks around
it.

What a text is read as is told by what is left of it when it is stripped.  It is read as an integer
exactly if that is an optional sign and a row of decimal digits of any script, no more than
`maxDigits` of them, that denote the integer; the text is too long to be read exactly if there are
more of them; and there is nothing to read in any other text.  Whenever there are signed digits, the
reader of grouped numerals finds the same in them, so that it refuses none for its form. -/
theorem reads_signed_digits :
    (∀ n : Int, (Nat.toDigits 10 n.natAbs).length ≤ maxDigits →
      write n = .ok (decimal n) ∧
      ∀ front back : List Char, (∀ c ∈ front, isBlank c) → (∀ c ∈ back, isBlank c) →
        read (String.ofList (front ++ (decimal n).toList ++ back)) = .ok (some n)) ∧
    ∀ s : String,
      (∀ n : Int, read s = .ok (some n) ↔
        ∃ negative digits, SignedDigits (strip s).toList negative digits ∧
          digits.length ≤ maxDigits ∧ denoted negative digits = n) ∧
      (∀ error, read s = .error error ↔
        ∃ negative digits, SignedDigits (strip s).toList negative digits ∧
          maxDigits < digits.length ∧ .reading digits.length = error) ∧
      (read s = .ok none ↔
        ∀ negative digits, ¬ SignedDigits (strip s).toList negative digits) ∧
      ∀ negative digits, SignedDigits (strip s).toList negative digits →
        readGrouped (strip s) = read s ∧ readGrouped (strip s) ≠ .ok none := by
  constructor
  · intro n hlength
    have hfits := length_toDigits_iff.1 hlength
    exact ⟨if_pos hfits, fun front back => read_surrounded_decimal hfits⟩
  · intro s
    have hnone : read s = .ok none ↔
        ∀ negative digits, ¬ SignedDigits (strip s).toList negative digits := by
      rw [toList_strip]
      refine ⟨fun hread negative digits hdigits => ?_, read_of_not_signedDigits⟩
      rw [read_of_signedDigits hdigits] at hread
      split at hread
      · cases hread
      · cases hread
    refine ⟨fun n => ?_, fun error => ?_, hnone, fun negative digits hdigits => ?_⟩
    · rw [toList_strip]
      exact read_eq_ok_some_iff
    · rw [toList_strip]
      exact read_eq_error_iff
    · have hgrouped := readGrouped_of_signedDigits hdigits
      refine ⟨hgrouped, fun hrefused => ?_⟩
      exact hnone.1 (hgrouped.symm.trans hrefused) negative digits hdigits

/-- Scripts may mix, and a leading zero is a digit. -/
theorem reads_signed_digits_mixed :
    ((Nat.toDigits 10 (-34 : Int).natAbs).length ≤ maxDigits ∧
      (∀ c ∈ ['\t'], isBlank c) ∧ ∀ c ∈ [' '], isBlank c) ∧
    read (String.ofList (['\t'] ++ (decimal (-34)).toList ++ [' '])) = .ok (some (-34)) ∧
    (SignedDigits (strip "\t+0\u06634 ").toList false [0, 3, 4] ∧ [0, 3, 4].length ≤ maxDigits) ∧
    read "\t+0\u06634 " = .ok (some 34) ∧ readGrouped (strip "\t+0\u06634 ") = .ok (some 34) := by
  obtain ⟨hwritten, hread⟩ := reads_signed_digits
  have hlength : (Nat.toDigits 10 (-34 : Int).natAbs).length ≤ maxDigits := by decide
  have hfront : ∀ c ∈ ['\t'], isBlank c := List.forall_mem_singleton.2 rfl
  have hback : ∀ c ∈ [' '], isBlank c := List.forall_mem_singleton.2 rfl
  have hstrip : (strip "\t+0\u06634 ").toList = ['+', '0', '\u0663', '4'] := by decide
  have hrow : IsRow ['0', '\u0663', '4'] [0, 3, 4] :=
    ⟨List.cons_ne_nil _ _, .cons rfl (.cons rfl (.cons rfl .nil))⟩
  have hdigits : SignedDigits (strip "\t+0\u06634 ").toList false [0, 3, 4] :=
    hstrip ▸ .plus hrow
  have hfew : [0, 3, 4].length ≤ maxDigits := by decide
  obtain ⟨hinteger, -, -, hgrouped⟩ := hread "\t+0\u06634 "
  have hvalue : read "\t+0\u06634 " = .ok (some 34) :=
    (hinteger 34).2 ⟨false, [0, 3, 4], hdigits, hfew, by decide⟩
  exact ⟨⟨hlength, hfront, hback⟩, (hwritten (-34) hlength).2 _ _ hfront hback, ⟨hdigits, hfew⟩,
    hvalue, (hgrouped _ _ hdigits).1.trans hvalue⟩

end Accumulator.Numeral
