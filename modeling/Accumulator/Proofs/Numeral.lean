import Accumulator.Numeral
import Mathlib.Data.List.Induction

/-!
# Numerals and the integers they stand for

The decimal text of an integer is a sign and a row of ASCII digits (`toList_decimal`), so it is one
word without blanks (`words_decimal`).  An integer whose numeral fits is read back from its decimal
text (`read_decimal`), and every integer that is read has a numeral that fits (`fits_of_read`).
-/

namespace Accumulator

/-! ### Digits and blanks -/

namespace Text

theorem digitValue?_of_isDigit {c : Char} (h : c.isDigit) :
    digitValue? c = some (c.toNat - 48) := by
  have hbounds := Char.isDigit_iff_toNat.1 h
  have hlo : 48 ≤ c.toNat := hbounds.1
  have hhi : c.toNat < 58 := Nat.lt_succ_of_le hbounds.2
  simp [digitValue?, digitZeros, hlo, hhi]

theorem digitValue?_lt_ten {c : Char} {d : Nat} (h : digitValue? c = some d) : d < 10 := by
  obtain ⟨start, hfind, rfl⟩ := Option.map_eq_some_iff.1 h
  have hin := List.find?_some hfind
  simp only [Bool.and_eq_true, decide_eq_true_eq] at hin
  omega

theorem isBlank_of_isDigit {c : Char} (h : c.isDigit) : isBlank c = false := by
  have hbounds := Char.isDigit_iff_toNat.1 h
  have hlo : 48 ≤ c.toNat := hbounds.1
  have hhi : c.toNat ≤ 57 := hbounds.2
  simp only [isBlank, Bool.or_eq_false_iff, Bool.and_eq_false_iff, decide_eq_false_iff_not,
    beq_eq_false_iff_ne]
  omega

/-- Nothing is taken off a text that `p` does not hold anywhere in. -/
theorem trimBoth_eq_self {p : Char → Bool} {cs : List Char} (h : ∀ c ∈ cs, p c = false) :
    trimBoth p cs = cs := by
  have hdrop : ∀ l : List Char, (∀ c ∈ l, p c = false) → l.dropWhile p = l := by
    intro l hl
    cases l with
    | nil => rfl
    | cons c l => rw [List.dropWhile_cons_of_neg (by simp [hl c])]
  rw [trimBoth, hdrop cs h, hdrop cs.reverse (by simpa using h), List.reverse_reverse]

/-- A text without blanks that is not empty is one word. -/
theorem runs_eq_singleton {cs : List Char} (hne : cs ≠ []) (h : ∀ c ∈ cs, isBlank c = false) :
    runs cs = [cs] := by
  rw [runs, List.splitOnP_eq_singleton h]
  simp [hne]

/-- A word in front of a space is split off. -/
theorem runs_append_space {cs rest : List Char} (hne : cs ≠ [])
    (h : ∀ c ∈ cs, isBlank c = false) : runs (cs ++ ' ' :: rest) = cs :: runs rest := by
  rw [runs, List.splitOnP_append_cons_of_forall_mem h ' ' (by decide)]
  simp [runs, hne]

end Text

open Text

namespace Numeral

/-- The characters of a decimal text: the digits of the absolute value behind the sign. -/
theorem toList_decimal (n : Int) :
    (decimal n).toList = (if n < 0 then ['-'] else []) ++ Nat.toDigits 10 n.natAbs := by
  rw [decimal, Int.repr_eq_if]
  by_cases h : 0 ≤ n
  · have habs : n.toNat = n.natAbs := by omega
    simp [h, Int.not_lt.2 h, habs]
  · have habs : (-n).toNat = n.natAbs := by omega
    simp [h, Int.not_le.1 h, habs]

theorem isDigit_of_mem_toDigits {c : Char} {n : Nat} (h : c ∈ Nat.toDigits 10 n) : c.isDigit :=
  Nat.isDigit_of_mem_toDigits (by decide) (by decide) h

theorem isBlank_of_mem_decimal {n : Int} {c : Char} (h : c ∈ (decimal n).toList) :
    isBlank c = false := by
  rw [toList_decimal, List.mem_append] at h
  rcases h with h | h
  · split at h
    · rw [List.mem_singleton.1 h]
      decide
    · simp at h
  · exact isBlank_of_isDigit (isDigit_of_mem_toDigits h)

theorem toList_decimal_ne_nil (n : Int) : (decimal n).toList ≠ [] := by
  rw [toList_decimal]
  simp

/-- A decimal text is one word. -/
theorem words_decimal (n : Int) : words (decimal n) = [decimal n] := by
  rw [words, runs_eq_singleton (toList_decimal_ne_nil n) fun c => isBlank_of_mem_decimal]
  simp

/-! ### Reading -/

theorem mapM_digitValue? {cs : List Char} (h : ∀ c ∈ cs, c.isDigit) :
    cs.mapM digitValue? = some (cs.map fun c => c.toNat - 48) := by
  induction cs with
  | nil => rfl
  | cons c cs ih =>
    have hc := digitValue?_of_isDigit (h c (List.mem_cons_self ..))
    have hcs := ih fun c hc => h c (List.mem_cons_of_mem _ hc)
    rw [List.mapM_cons, hc, hcs]
    rfl

theorem value_map_digits (cs : List Char) :
    value (cs.map fun c => c.toNat - 48) = Nat.ofDigitChars 10 cs 0 := by
  rw [value, List.foldl_map, Nat.ofDigitChars_eq_foldl]
  rfl

theorem length_toDigits_le_maxDigits_iff {n : Nat} :
    (Nat.toDigits 10 n).length ≤ maxDigits ↔ n < bound := by
  have hpow : ∀ k, 0 < k → ((Nat.toDigits 10 n).length ≤ k ↔ n < Nat.pow 10 k) :=
    fun k hk => Nat.length_toDigits_le_iff (by decide) hk
  unfold bound
  exact hpow maxDigits (by decide)

/-- An integer has a numeral that fits if there are not too many digits in it. -/
theorem length_toDigits_iff {n : Int} :
    (Nat.toDigits 10 n.natAbs).length ≤ maxDigits ↔ fits n := by
  rw [length_toDigits_le_maxDigits_iff, fits, decide_eq_true_iff]

theorem splitSign_of_isDigit {cs : List Char} (h : ∀ c ∈ cs, c.isDigit) :
    splitSign cs = (false, cs) := by
  unfold splitSign
  split
  · exact absurd (h _ (List.mem_cons_self ..)) (by decide)
  · exact absurd (h _ (List.mem_cons_self ..)) (by decide)
  · rfl

theorem splitSign_toList_decimal (n : Int) :
    splitSign (decimal n).toList = (decide (n < 0), Nat.toDigits 10 n.natAbs) := by
  rw [toList_decimal]
  by_cases h : n < 0
  · simp [h, splitSign]
  · simp only [h, ↓reduceIte, List.nil_append, decide_false]
    exact splitSign_of_isDigit fun c => isDigit_of_mem_toDigits

/-- A row of too many digits is not read. -/
theorem read_of_length_gt {cs : List Char} (h : ∀ c ∈ cs, c.isDigit)
    (hlong : maxDigits < cs.length) :
    read (String.ofList cs) = .error (.reading cs.length) := by
  have hdigits := mapM_digitValue? h
  unfold read readDigits
  rw [String.toList_ofList, trimBoth_eq_self fun c hc => isBlank_of_isDigit (h c hc),
    splitSign_of_isDigit h]
  dsimp only
  rw [hdigits]
  split
  · next heq => cases heq
  · next heq =>
    have hnil : cs = [] := by simpa using heq
    rw [hnil] at hlong
    cases hlong
  · next digits _ heq =>
    obtain rfl := Option.some.inj heq
    rw [List.length_map, if_pos hlong]

/-- The digits of a natural number are read as that number. -/
theorem readDigits_toDigits (negative : Bool) {n : Nat} (h : n < bound) :
    readDigits negative (Nat.toDigits 10 n) = .ok (some (signed negative n)) := by
  have hdigits := mapM_digitValue? fun c (hc : c ∈ Nat.toDigits 10 n) => isDigit_of_mem_toDigits hc
  have hlength := length_toDigits_le_maxDigits_iff.2 h
  unfold readDigits
  rw [hdigits]
  split
  · next heq => cases heq
  · next heq => simp at heq
  · next digits _ heq =>
    obtain rfl := Option.some.inj heq
    rw [if_neg (Nat.not_lt.2 (by simpa using hlength)), value_map_digits,
      Nat.ofDigitChars_ten_toDigits]

/-- **Round trip**: an integer whose numeral fits is read back from its decimal text. -/
theorem read_decimal {n : Int} (h : fits n) : read (decimal n) = .ok (some n) := by
  have habs : n.natAbs < bound := by simpa [fits] using h
  have hsigned : signed (decide (n < 0)) n.natAbs = n := by
    unfold signed
    split
    · next hneg => simp only [decide_eq_true_eq] at hneg; omega
    · next hneg => simp only [decide_eq_true_eq] at hneg; omega
  unfold read
  rw [trimBoth_eq_self fun c => isBlank_of_mem_decimal, splitSign_toList_decimal]
  dsimp only
  rw [readDigits_toDigits _ habs, hsigned]

theorem value_append (digits : List Nat) (d : Nat) :
    value (digits ++ [d]) = 10 * value digits + d := by
  rw [value, List.foldl_append]
  rfl

/-- The value of so many digits has no more of them. -/
theorem value_lt {digits : List Nat} (h : ∀ d ∈ digits, d < 10) :
    value digits < Nat.pow 10 digits.length := by
  induction digits using List.reverseRecOn with
  | nil => decide
  | append_singleton digits d ih =>
    have hd := h d (by simp)
    have hdigits := ih fun d hd => h d (by simp [hd])
    rw [value_append, List.length_append, List.length_singleton]
    change _ < Nat.pow 10 digits.length * 10
    omega

theorem lt_ten_of_mapM_eq_some {cs : List Char} {digits : List Nat}
    (h : cs.mapM digitValue? = some digits) : ∀ d ∈ digits, d < 10 := by
  induction cs generalizing digits with
  | nil =>
    cases h
    simp
  | cons c cs ih =>
    rw [List.mapM_cons] at h
    obtain ⟨d, hd, h⟩ := Option.bind_eq_some_iff.1 h
    obtain ⟨rest, hrest, h⟩ := Option.bind_eq_some_iff.1 h
    obtain rfl := Option.some.inj h
    intro e he
    rcases List.mem_cons.1 he with rfl | he
    · exact digitValue?_lt_ten hd
    · exact ih hrest e he

theorem fits_signed {negative : Bool} {n : Nat} : fits (signed negative n) ↔ n < bound := by
  have habs : (signed negative n).natAbs = n := by
    cases negative
    · rfl
    · exact Int.natAbs_neg n
  rw [fits, habs, decide_eq_true_iff]

/-- An integer that is read has a numeral that fits. -/
theorem fits_of_read {s : String} {n : Int} (h : read s = .ok (some n)) : fits n := by
  unfold read readDigits at h
  dsimp only at h
  split at h
  · cases h
  · cases h
  · next digits _ hdigits =>
    split at h
    · cases h
    · next hlength =>
      simp only [Except.ok.injEq, Option.some.injEq] at h
      have hpow : ∀ k, digits.length ≤ k → Nat.pow 10 digits.length ≤ Nat.pow 10 k :=
        fun k hk => Nat.pow_le_pow_right (by decide) hk
      rw [← h, fits_signed]
      unfold bound
      calc value digits
        _ < Nat.pow 10 digits.length := value_lt (lt_ten_of_mapM_eq_some hdigits)
        _ ≤ Nat.pow 10 maxDigits := hpow maxDigits (Nat.not_lt.1 hlength)

/-- A natural number below a bound of so many digits fits. -/
theorem fits_of_natAbs_le {n : Int} {b : Nat} (h : n.natAbs ≤ b) (hb : b < bound) : fits n := by
  rw [fits, decide_eq_true_iff]
  exact Nat.lt_of_le_of_lt h hb

theorem fits_zero : fits 0 := fits_of_natAbs_le (Nat.le_refl 0) (by decide +kernel)

/-- The greatest integer that can be written out is followed by one that cannot. -/
theorem fits_bound_pred : fits (bound - 1 : Int) ∧ fits (1 + (bound - 1 : Int)) = false := by
  have hpos : 0 < bound := by decide +kernel
  unfold fits
  generalize bound = bound at hpos
  rw [decide_eq_true_iff, decide_eq_false_iff_not]
  omega

end Numeral

end Accumulator
