import Accumulator.Proofs.Numeral

/-!
# Texts that can be read off

A text that stands in front of another one can be read off if its end can be seen.  That is so if
all of its characters are of a class that the first one behind it is not of, and it is the same with
the rows of a listing (`append_inj_of_class`).

The decimal text of an integer determines the integer (`decimal_injective`), and can be read off if
neither a digit nor a sign is behind it (`decimal_append_inj`).
-/

namespace Accumulator

namespace Text

variable {α : Type} {p : α → Bool} {front other rest others : List α}

theorem takeWhile_append_of_class (hfront : ∀ a ∈ front, p a)
    (hrest : ∀ a ∈ rest.head?, p a = false) : (front ++ rest).takeWhile p = front := by
  rw [List.takeWhile_append_of_pos hfront]
  cases rest with
  | nil => simp
  | cons a rest => simp [hrest a rfl]

/-- **A front of one class can be read off** if what is behind it begins with none of the class. -/
theorem append_inj_of_class (hfront : ∀ a ∈ front, p a) (hother : ∀ a ∈ other, p a)
    (hrest : ∀ a ∈ rest.head?, p a = false) (hothers : ∀ a ∈ others.head?, p a = false)
    (h : front ++ rest = other ++ others) : front = other ∧ rest = others := by
  have hsame : front = other := by
    rw [← takeWhile_append_of_class hfront hrest, h, takeWhile_append_of_class hother hothers]
  subst hsame
  exact ⟨rfl, List.append_cancel_left h⟩

end Text

namespace Numeral

/-- A character of the decimal text of an integer. -/
def isDecimal (c : Char) : Bool := c == '-' || c.isDigit

theorem isDecimal_of_mem {n : Int} {c : Char} (h : c ∈ (decimal n).toList) : isDecimal c := by
  rw [toList_decimal, List.mem_append] at h
  rw [isDecimal, Bool.or_eq_true, beq_iff_eq]
  rcases h with h | h
  · split at h
    · exact Or.inl (List.mem_singleton.1 h)
    · cases h
  · exact Or.inr (isDigit_of_mem_toDigits h)

/-- The decimal text of an integer begins with one of its characters. -/
theorem exists_toList_decimal (n : Int) :
    ∃ c cs, (decimal n).toList = c :: cs ∧ isDecimal c := by
  obtain ⟨c, cs, hcons⟩ := List.exists_cons_of_ne_nil (toList_decimal_ne_nil n)
  exact ⟨c, cs, hcons, isDecimal_of_mem (n := n) (by rw [hcons]; exact List.mem_cons_self ..)⟩

/-- **An integer is determined by its decimal text.** -/
theorem decimal_injective {n k : Int} (h : decimal n = decimal k) : n = k := by
  have hsplit := splitSign_toList_decimal n
  rw [h, splitSign_toList_decimal k] at hsplit
  obtain ⟨hsign, hdigits⟩ := Prod.mk.inj hsplit
  have habs : k.natAbs = n.natAbs := by
    rw [← Nat.ofDigitChars_ten_toDigits (n := k.natAbs), hdigits, Nat.ofDigitChars_ten_toDigits]
  have hneg : k < 0 ↔ n < 0 := decide_eq_decide.1 hsign
  omega

/-- The decimal text of an integer can be read off. -/
theorem decimal_append_inj {n k : Int} {rest others : List Char}
    (hrest : ∀ c ∈ rest.head?, isDecimal c = false)
    (hothers : ∀ c ∈ others.head?, isDecimal c = false)
    (h : (decimal n).toList ++ rest = (decimal k).toList ++ others) : n = k ∧ rest = others := by
  obtain ⟨hdecimal, hsame⟩ := Text.append_inj_of_class (fun _ hc => isDecimal_of_mem hc)
    (fun _ hc => isDecimal_of_mem hc) hrest hothers h
  exact ⟨decimal_injective (String.toList_inj.1 hdecimal), hsame⟩

end Numeral

end Accumulator
