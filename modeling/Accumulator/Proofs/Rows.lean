import Accumulator.Program
import Accumulator.Proofs.Decoding
import Accumulator.Registers
import Mathlib.Data.List.Basic

/-!
# Rows of a text

`rows` takes texts apart that `stack` has put one below the other.  It gives them back if none of
them is empty or holds a line feed (`rows_stack`).  Empty ones are told apart as well once it is
known that there is a row at all (`stack_inj`).

Nothing that a trace shows holds a line feed: a numeral and an operand hold no blanks at all, and
what stands around them are spaces and signs.  The lines of a program file hold none either, since
they stand between line ends (`Program.isRow_of_read`).
-/

namespace Accumulator

namespace Text

/-- The rows of a text.  The empty text has none. -/
def rows (s : String) : List String :=
  if s = "" then [] else (s.toList.splitOn '\n').map String.ofList

theorem splitOn_stack {lines : List String} (hne : lines ≠ [])
    (hline : ∀ line ∈ lines, '\n' ∉ line.toList) :
    (stack lines).toList.splitOn '\n' = lines.map String.toList := by
  have htoList : (stack lines).toList = ['\n'].intercalate (lines.map String.toList) :=
    String.toList_intercalate
  rw [htoList, List.splitOn_intercalate]
  · intro l hl
    obtain ⟨line, hmem, rfl⟩ := List.mem_map.1 hl
    exact hline line hmem
  · simpa using hne

/-- **The rows of a stack are the texts in it.** -/
theorem rows_stack {lines : List String} (hempty : "" ∉ lines)
    (hline : ∀ line ∈ lines, '\n' ∉ line.toList) : rows (stack lines) = lines := by
  cases hlines : lines with
  | nil => rfl
  | cons first rest =>
    rw [← hlines]
    have hsplit := splitOn_stack (by simp [hlines]) hline
    -- the empty text would be split into the empty row
    have hne : stack lines ≠ "" := by
      intro h
      rw [h, hlines] at hsplit
      have hfirst : [] = first.toList := (List.cons.inj hsplit).1
      have hnil : first = "" := String.toList_inj.1 hfirst.symm
      exact hempty (by rw [hlines, hnil]; exact List.mem_cons_self ..)
    rw [rows, if_neg hne, hsplit, List.map_map]
    simp

theorem stack_cons {row : String} {rows : List String} (h : rows ≠ []) :
    stack (row :: rows) = row ++ "\n" ++ stack rows := by
  obtain ⟨second, rest, rfl⟩ := List.exists_cons_of_ne_nil h
  exact String.intercalate_cons_cons

theorem stack_append {rows others : List String} (hrows : rows ≠ []) (hothers : others ≠ []) :
    stack (rows ++ others) = stack rows ++ "\n" ++ stack others := by
  induction rows with
  | nil => exact absurd rfl hrows
  | cons row rows ih =>
    by_cases hrest : rows = []
    · subst hrest
      exact stack_cons hothers
    · rw [List.cons_append, stack_cons (by simp [hrest]), ih hrest, stack_cons hrest]
      simp only [String.append_assoc]

/-- **A stack of rows determines them.** -/
theorem stack_inj {rows others : List String} (hrows : rows ≠ []) (hothers : others ≠ [])
    (hrow : ∀ row ∈ rows, '\n' ∉ row.toList) (hother : ∀ row ∈ others, '\n' ∉ row.toList)
    (h : stack rows = stack others) : rows = others := by
  have hinjective : Function.Injective String.toList := fun _ _ => String.toList_inj.1
  -- splitting a stack at its line feeds gives the rows back
  have hsplit := splitOn_stack hrows hrow
  rw [h, splitOn_stack hothers hother] at hsplit
  exact (List.map_injective_iff.2 hinjective hsplit).symm

theorem newline_not_mem_of_blank {cs : List Char} (h : ∀ c ∈ cs, isBlank c = false) :
    '\n' ∉ cs := by
  intro hmem
  have hblank := h _ hmem
  cases hblank

theorem newline_not_mem_filler (width : Nat) (s : String) :
    '\n' ∉ (filler width s).toList := by
  intro h
  rw [filler, String.toList_ofList] at h
  have hspace := List.eq_of_mem_replicate h
  cases hspace

end Text

open Text

theorem Numeral.newline_not_mem_decimal (n : Int) : '\n' ∉ (decimal n).toList :=
  newline_not_mem_of_blank fun _ => isBlank_of_mem_decimal

theorem Registers.newline_not_mem_flagText (r : Registers) : '\n' ∉ r.flagText.toList := by
  rw [flagText, String.toList_ofList]
  cases r.zero <;> cases r.overflow <;> decide

theorem Instruction.newline_not_mem_text {i : Instruction} (h : i.WellFormed) :
    '\n' ∉ i.text.toList := by
  have hmnemonic := newline_not_mem_of_blank (isName_toList i.form.opcode.isName_mnemonic).2
  rw [text, Form.text]
  cases hoperand : i.form.operand with
  | none => exact hmnemonic
  | some operand =>
    have htext := newline_not_mem_of_blank (h operand hoperand).toList_text.2
    simp [hmnemonic, htext]

/-- A text of a single row. -/
def Word.IsRow (w : Word) : Prop := ∃ s, w = .text s ∧ '\n' ∉ s.toList

/-! ### The lines of a program file -/

/-- What stands between separators holds none. -/
theorem Text.eq_false_of_mem_splitOnP {p : Char → Bool} {cs piece : List Char}
    (h : piece ∈ cs.splitOnP p) : ∀ c ∈ piece, p c = false := by
  induction cs generalizing piece with
  | nil =>
    obtain rfl := List.mem_singleton.1 h
    simp
  | cons c cs ih =>
    rw [List.splitOnP_cons_eq_if_modifyHead] at h
    split at h
    · rcases List.mem_cons.1 h with rfl | h
      · simp
      · exact ih h
    · next hc =>
      obtain ⟨first, rest, hsplit⟩ := List.exists_cons_of_ne_nil (List.splitOnP_ne_nil p cs)
      rw [hsplit] at ih h
      rcases List.mem_cons.1 h with rfl | h
      · exact List.forall_mem_cons.2 ⟨by simpa using hc, ih (List.mem_cons_self ..)⟩
      · exact ih (List.mem_cons_of_mem _ h)

theorem Text.mem_of_mem_strip {s : String} {c : Char} (h : c ∈ (strip s).toList) :
    c ∈ s.toList := by
  rw [strip, String.toList_ofList, trimBoth, List.mem_reverse] at h
  have hfront := (List.dropWhile_suffix _).subset h
  exact (List.dropWhile_suffix _).subset (List.mem_reverse.1 hfront)

theorem Program.exists_linesOf_of_read {name : String} {opened : Except FileError (List UInt8)}
    {lines : List String} {event : Event} (h : read name opened = .ok (lines, event)) :
    ∃ text, lines = linesOf text := by
  dsimp only [read] at h
  split at h
  · cases h
  · cases h
  · split at h
    · cases h
    · next hbytes =>
      cases h
      unfold ofBytes at hbytes
      split at hbytes
      · cases hbytes
      · exact ⟨_, (Except.ok.inj hbytes).symm⟩

/-- **The lines of a program file are rows.** -/
theorem Program.isRow_of_read {name : String} {opened : Except FileError (List UInt8)}
    {lines : List String} {event : Event} (h : read name opened = .ok (lines, event)) :
    ∀ line ∈ lines, (Word.text line).IsRow := by
  obtain ⟨text, rfl⟩ := exists_linesOf_of_read h
  intro line hline
  obtain ⟨raw, hraw, rfl⟩ := List.mem_map.1 hline
  obtain ⟨piece, hpiece, rfl⟩ := List.mem_map.1 hraw
  refine ⟨_, rfl, fun hnewline => ?_⟩
  have hmem := Text.mem_of_mem_strip hnewline
  rw [String.toList_ofList] at hmem
  have hsplit : piece ∈ (Text.unifyReturns text).splitOnP Text.isLineEnd := by
    dsimp only [Text.splitLines] at hpiece
    split at hpiece
    · exact List.dropLast_subset _ hpiece
    · exact hpiece
  cases Text.eq_false_of_mem_splitOnP hsplit _ hmem

end Accumulator
