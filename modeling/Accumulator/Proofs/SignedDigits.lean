import Accumulator.Proofs.Numeral
import Mathlib.Data.List.Forall2
import Mathlib.Data.Nat.Digits.Defs

/-!
# Signs and digits

What a numeral is, told from how it is read.  `SignedDigits cs negative digits` says that a text is
an optional sign and a row of decimal digits of any script, with these values.  A text is that in
one way at most (`SignedDigits.unique`).

`read` takes the blanks off a text.  If signed digits are left over it reads the integer that they
denote in the decimal system, unless there are too many of them (`read_of_signedDigits`); otherwise
there is nothing to read (`read_of_not_signedDigits`).
-/

namespace Accumulator.Numeral

open Text

variable {cs : List Char} {negative : Bool} {digits : List Nat}

/-- Whether a text is a row of decimal digits with these values. -/
def IsRow (cs : List Char) (digits : List Nat) : Prop :=
  cs ≠ [] ∧ List.Forall₂ (fun c d => digitValue? c = some d) cs digits

/-- Whether a text is a row of digits behind an optional sign. -/
inductive SignedDigits : List Char → Bool → List Nat → Prop
  | unsigned {cs : List Char} {digits : List Nat} (row : IsRow cs digits) :
      SignedDigits cs false digits
  | plus {cs : List Char} {digits : List Nat} (row : IsRow cs digits) :
      SignedDigits ('+' :: cs) false digits
  | minus {cs : List Char} {digits : List Nat} (row : IsRow cs digits) :
      SignedDigits ('-' :: cs) true digits

/-- The integer that a sign and digits denote: each digit counts ten times as much as the one behind
it. -/
def denoted (negative : Bool) (digits : List Nat) : Int :=
  signed negative (Nat.ofDigits 10 digits.reverse)

/-! ### Digits -/

theorem mapM_digitValue?_eq_some_iff :
    cs.mapM digitValue? = some digits ↔
      List.Forall₂ (fun c d => digitValue? c = some d) cs digits := by
  induction cs generalizing digits with
  | nil =>
    constructor
    · rintro ⟨⟩
      exact .nil
    · rintro ⟨⟩
      rfl
  | cons c cs ih =>
    rw [List.mapM_cons]
    constructor
    · intro h
      obtain ⟨d, hd, h⟩ := Option.bind_eq_some_iff.1 h
      obtain ⟨rest, hrest, h⟩ := Option.bind_eq_some_iff.1 h
      obtain rfl := Option.some.inj h
      exact .cons hd (ih.1 hrest)
    · rintro (_ | ⟨hd, hrest⟩)
      rw [hd, ih.2 hrest]
      rfl

/-- The value of digits is their value in the decimal system. -/
theorem value_eq_ofDigits (digits : List Nat) : value digits = Nat.ofDigits 10 digits.reverse := by
  induction digits using List.reverseRecOn with
  | nil => rfl
  | append_singleton digits d ih =>
    rw [value_append, ih, List.reverse_append, List.reverse_singleton, List.singleton_append,
      Nat.ofDigits_cons, Nat.add_comm]

/-- A sign is no digit. -/
theorem splitSign_of_isRow (h : IsRow cs digits) : splitSign cs = (false, cs) := by
  obtain ⟨-, hdigits⟩ := h
  have hminus : digitValue? '-' = none := by decide
  have hplus : digitValue? '+' = none := by decide
  cases hdigits with
  | nil => rfl
  | cons hc hrest =>
    unfold splitSign
    split
    · next heq =>
      rw [(List.cons.inj heq).1, hminus] at hc
      cases hc
    · next heq =>
      rw [(List.cons.inj heq).1, hplus] at hc
      cases hc
    · rfl

theorem signedDigits_iff : SignedDigits cs negative digits ↔
    (splitSign cs).1 = negative ∧ IsRow (splitSign cs).2 digits := by
  constructor
  · intro h
    cases h with
    | unsigned hrow =>
      rw [splitSign_of_isRow hrow]
      exact ⟨rfl, hrow⟩
    | plus hrow => exact ⟨rfl, hrow⟩
    | minus hrow => exact ⟨rfl, hrow⟩
  · rintro ⟨rfl, hrow⟩
    unfold splitSign at hrow ⊢
    split at hrow
    · exact .minus hrow
    · exact .plus hrow
    · exact .unsigned hrow

/-- **A text is a sign and digits in one way at most.** -/
theorem SignedDigits.unique {other : Bool} {others : List Nat} (h : SignedDigits cs negative digits)
    (hother : SignedDigits cs other others) : negative = other ∧ digits = others := by
  obtain ⟨hsign, -, hrow⟩ := signedDigits_iff.1 h
  obtain ⟨hsign', -, hrow'⟩ := signedDigits_iff.1 hother
  refine ⟨hsign.symm.trans hsign', ?_⟩
  rw [← mapM_digitValue?_eq_some_iff] at hrow hrow'
  exact Option.some.inj (hrow.symm.trans hrow')

/-! ### Reading -/

/-- **Signed digits are read as the integer they denote**, unless there are too many of them. -/
theorem read_of_signedDigits {s : String}
    (h : SignedDigits (trimBoth isBlank s.toList) negative digits) :
    read s = if maxDigits < digits.length then .error (.reading digits.length)
      else .ok (some (denoted negative digits)) := by
  obtain ⟨hsign, hne, hrow⟩ := signedDigits_iff.1 h
  have hdigits := mapM_digitValue?_eq_some_iff.2 hrow
  unfold read readDigits
  dsimp only
  rw [hdigits, hsign]
  split
  · next heq => cases heq
  · next heq =>
    -- a row has a digit
    obtain rfl := Option.some.inj heq
    exact absurd (List.forall₂_nil_right_iff.1 hrow) hne
  · next found _ heq =>
    obtain rfl := Option.some.inj heq
    rw [denoted, value_eq_ofDigits]

/-- Nothing else is read. -/
theorem read_of_not_signedDigits {s : String}
    (h : ∀ negative digits, ¬ SignedDigits (trimBoth isBlank s.toList) negative digits) :
    read s = .ok none := by
  unfold read readDigits
  dsimp only
  split
  · rfl
  · rfl
  · next digits hne hdigits =>
    have hrow := mapM_digitValue?_eq_some_iff.1 hdigits
    refine absurd (signedDigits_iff.2 ⟨rfl, fun hnil => hne ?_, hrow⟩) (h _ digits)
    rw [hnil] at hrow
    exact List.forall₂_nil_left_iff.1 hrow

/-- What a text is read as. -/
theorem read_cases (s : String) :
    (∃ negative digits, SignedDigits (trimBoth isBlank s.toList) negative digits ∧
      read s = if maxDigits < digits.length then .error (.reading digits.length)
        else .ok (some (denoted negative digits))) ∨
    read s = .ok none := by
  by_cases h : ∃ negative digits, SignedDigits (trimBoth isBlank s.toList) negative digits
  · obtain ⟨negative, digits, hdigits⟩ := h
    exact Or.inl ⟨negative, digits, hdigits, read_of_signedDigits hdigits⟩
  · exact Or.inr (read_of_not_signedDigits fun negative digits hdigits =>
      h ⟨negative, digits, hdigits⟩)

/-- An integer that is read is denoted by signed digits, which are not too many. -/
theorem read_eq_ok_some_iff {s : String} {n : Int} : read s = .ok (some n) ↔
    ∃ negative digits, SignedDigits (trimBoth isBlank s.toList) negative digits ∧
      digits.length ≤ maxDigits ∧ denoted negative digits = n := by
  constructor
  · intro h
    rcases read_cases s with ⟨negative, digits, hdigits, hread⟩ | hread
    · rw [h] at hread
      split at hread
      · cases hread
      · next hlength =>
        exact ⟨negative, digits, hdigits, Nat.not_lt.1 hlength,
          (Option.some.inj (Except.ok.inj hread)).symm⟩
    · cases h.symm.trans hread
  · rintro ⟨negative, digits, hdigits, hlength, rfl⟩
    rw [read_of_signedDigits hdigits, if_neg (Nat.not_lt.2 hlength)]

/-- A text is too long to be read if it is made of too many signed digits. -/
theorem read_eq_error_iff {s : String} {error : Overlong} : read s = .error error ↔
    ∃ negative digits, SignedDigits (trimBoth isBlank s.toList) negative digits ∧
      maxDigits < digits.length ∧ .reading digits.length = error := by
  constructor
  · intro h
    rcases read_cases s with ⟨negative, digits, hdigits, hread⟩ | hread
    · rw [h] at hread
      split at hread
      · next hlength => exact ⟨negative, digits, hdigits, hlength, (Except.error.inj hread).symm⟩
      · cases hread
    · cases h.symm.trans hread
  · rintro ⟨negative, digits, hdigits, hlength, rfl⟩
    rw [read_of_signedDigits hdigits, if_pos hlength]

end Accumulator.Numeral
