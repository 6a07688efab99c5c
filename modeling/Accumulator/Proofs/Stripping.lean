import Accumulator.Proofs.Decoding
import Accumulator.Proofs.Tokens
import Mathlib.Data.List.DropRight

/-!
# Stripping

`strip` takes the blanks off both ends of a text.  What is left neither begins nor ends with a
blank, and a text that does neither is left as it is (`strip_eq_self_iff`).

Every reader of text finds the same in a text and in the stripped one: its words are the same
(`words_strip`), the integer that it stands for is (`Numeral.read_strip`), and so is what it is
decoded to (`Instruction.decode_strip`).
-/

namespace Accumulator

namespace Text

variable {p : Char → Bool} {cs : List Char}

/-! ### What is taken off, and what is left -/

theorem trimBoth_eq_rdropWhile (p : Char → Bool) (cs : List Char) :
    trimBoth p cs = (cs.dropWhile p).rdropWhile p := rfl

/-- A text is what is left of it, between what is taken off. -/
theorem exists_trimBoth (p : Char → Bool) (cs : List Char) :
    ∃ front back, cs = front ++ (trimBoth p cs ++ back) ∧ (∀ c ∈ front, p c) ∧
      ∀ c ∈ back, p c := by
  refine ⟨cs.takeWhile p, (cs.dropWhile p).rtakeWhile p, ?_, fun c => List.mem_takeWhile_imp,
    fun c => List.mem_rtakeWhile_imp⟩
  have hback : trimBoth p cs ++ (cs.dropWhile p).rtakeWhile p = cs.dropWhile p :=
    List.rdropWhile_append_rtakeWhile
  rw [hback, List.takeWhile_append_dropWhile]

/-- Nothing more can be taken off what is left. -/
theorem ends_trimBoth (p : Char → Bool) (cs : List Char) :
    (∀ c ∈ (trimBoth p cs).head?, p c = false) ∧
      ∀ c ∈ (trimBoth p cs).getLast?, p c = false := by
  constructor
  · intro c hc
    -- the first character is the one at which dropping stopped
    obtain ⟨rest, hrest⟩ : (cs.dropWhile p).rdropWhile p <+: cs.dropWhile p :=
      List.rdropWhile_prefix p _
    have hfirst : (cs.dropWhile p).head? = some c := by
      rw [← hrest, List.head?_append, ← trimBoth_eq_rdropWhile, Option.mem_def.1 hc]
      rfl
    have hstop := List.head?_dropWhile_not p cs
    rw [hfirst] at hstop
    simpa using hstop
  · intro c hc
    obtain ⟨hne, rfl⟩ := List.mem_getLast?_eq_getLast hc
    have hlast := List.rdropWhile_last_not p (cs.dropWhile p) hne
    exact eq_false_of_ne_true hlast

/-- A text of which nothing can be taken off is left as it is. -/
theorem trimBoth_eq_self_iff : trimBoth p cs = cs ↔
    (∀ c ∈ cs.head?, p c = false) ∧ ∀ c ∈ cs.getLast?, p c = false := by
  constructor
  · intro h
    have hends := ends_trimBoth p cs
    rwa [h] at hends
  · rintro ⟨hfirst, hlast⟩
    have hfront : cs.dropWhile p = cs := by
      cases cs with
      | nil => rfl
      | cons c cs => exact List.dropWhile_cons_of_neg (by simp [hfirst c rfl])
    rw [trimBoth_eq_rdropWhile, hfront, List.rdropWhile_eq_self_iff]
    intro hne
    have hend := hlast _ (List.getLast?_eq_some_getLast hne)
    simp [hend]

theorem trimBoth_trimBoth (p : Char → Bool) (cs : List Char) :
    trimBoth p (trimBoth p cs) = trimBoth p cs :=
  trimBoth_eq_self_iff.2 (ends_trimBoth p cs)

/-- What is taken off anyway may as well not be there. -/
theorem trimBoth_append_of_class {back : List Char} (h : ∀ c ∈ back, p c) :
    trimBoth p (cs ++ back) = trimBoth p cs := by
  have hback : back.dropWhile p = [] := List.dropWhile_eq_nil_iff.2 h
  have hreverse : ∀ l : List Char, (l ++ back).rdropWhile p = l.rdropWhile p := by
    intro l
    rw [List.rdropWhile, List.reverse_append, List.dropWhile_append_of_pos (by simpa using h)]
    rfl
  rw [trimBoth_eq_rdropWhile, trimBoth_eq_rdropWhile, List.dropWhile_append]
  split
  · next hnone =>
    rw [hback, List.isEmpty_iff.1 hnone]
  · exact hreverse _

theorem trimBoth_append_append_of_class {front back : List Char} (hfront : ∀ c ∈ front, p c)
    (hback : ∀ c ∈ back, p c) : trimBoth p (front ++ cs ++ back) = trimBoth p cs := by
  rw [trimBoth_append_of_class hback, trimBoth_eq_rdropWhile, trimBoth_eq_rdropWhile,
    List.dropWhile_append_of_pos hfront]

/-! ### Blanks -/

theorem toList_strip (s : String) : (strip s).toList = trimBoth isBlank s.toList :=
  String.toList_ofList

/-- **A text is stripped as it is exactly if there is no blank at either end.** -/
theorem strip_eq_self_iff {s : String} : strip s = s ↔
    (∀ c ∈ s.toList.head?, isBlank c = false) ∧ ∀ c ∈ s.toList.getLast?, isBlank c = false := by
  rw [← trimBoth_eq_self_iff, ← toList_strip, String.toList_inj]

theorem strip_strip (s : String) : strip (strip s) = strip s :=
  strip_eq_self_iff.2 (by rw [toList_strip]; exact ends_trimBoth isBlank s.toList)

/-- Blanks behind a text do not count. -/
theorem runs_append_right_of_blank {gap : List Char} (h : ∀ c ∈ gap, isBlank c)
    (cs : List Char) : runs (cs ++ gap) = runs cs := by
  cases gap with
  | nil => rw [List.append_nil]
  | cons b gap =>
    have hgap := runs_append_of_blank (fun c hc => h c (List.mem_cons_of_mem b hc)) []
    rw [List.append_nil] at hgap
    rw [runs_append_cons (h b (List.mem_cons_self ..)), hgap]
    exact List.append_nil _

/-- **The words of a text are those of the stripped text.** -/
theorem words_strip (s : String) : words (strip s) = words s := by
  obtain ⟨front, back, hs, hfront, hback⟩ := exists_trimBoth isBlank s.toList
  rw [words, words, toList_strip]
  conv_rhs => rw [hs, runs_append_of_blank hfront, runs_append_right_of_blank hback]

end Text

open Text

/-- **A text and the stripped one stand for the same integer**, or for none, or are both too
long. -/
theorem Numeral.read_strip (s : String) : read (strip s) = read s := by
  rw [read, read, toList_strip, trimBoth_trimBoth]

/-- **A text and the stripped one are decoded alike**, and refused with the same words. -/
theorem Instruction.decode_strip (s : String) (address : Option Int) :
    decode (.text (strip s)) address = decode (.text s) address := by
  rw [decode, decode, words_strip]

end Accumulator
