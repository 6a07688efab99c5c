import Accumulator.Memory.Basic

/-!
# Reading back what memory holds

A memory is seen through `read`.  `exists_read_eq_ok_iff` says which addresses can be read;
`read_blank`, `read_write` and `read_load` say what each operation does to the words that are read.
A memory of a size is determined by what is read from it (`eq_of_read_eq`), and the cells that have
been written to are those from which a word is read that is not empty (`mem_used_iff`).
-/

namespace Accumulator

theorem isIndex_iff {n : Int} :
    isIndex n ↔ -9223372036854775808 ≤ n ∧ n ≤ 9223372036854775807 := by
  rw [isIndex, Bool.and_eq_true, decide_eq_true_iff, decide_eq_true_iff, maxIndex]

theorem le_maxIndex_of_isIndex {n : Int} (h : isIndex n) : n ≤ maxIndex := (isIndex_iff.1 h).2

namespace Memory

/-- Every address below the size, and no other, can be read. -/
theorem exists_read_eq_ok_iff {m : Memory} {address : Int} :
    (∃ word, m.read address = .ok word) ↔ 0 ≤ address ∧ address < m.size := by
  unfold read
  split
  · next h => simpa using h
  · next h => simpa using h

theorem read_eq_cells {m : Memory} {address : Int} {word : Word} :
    m.read address = .ok word ↔ 0 ≤ address ∧ m.cells[address.toNat]? = some word := by
  have hsize := m.size_cells
  unfold read
  split
  · next h =>
    have : address.toNat < m.cells.size := by omega
    simp [h.1, this]
  · next h =>
    simp only [reduceCtorEq, false_iff, not_and]
    intro h0
    rw [Array.getElem?_eq_none (by omega)]
    simp

theorem read_blank {size address : Int} (h : 0 ≤ address) (hlt : address < size) :
    (blank size).read address = .ok .empty := by
  rw [read_eq_cells]
  have : address.toNat < size.toNat := by omega
  simp [blank, h, this]

theorem size_write {m n : Memory} {address : Int} {word : Word}
    (h : m.write address word = .ok n) : n.size = m.size := by
  unfold write at h
  split at h
  · cases h; rfl
  · cases h

/-- A word that was written is read back, and all other words are as before. -/
theorem read_write {m n : Memory} {address other : Int} {word : Word}
    (h : m.write address word = .ok n) :
    n.read other = if other = address then .ok word else m.read other := by
  have hsize := m.size_cells
  unfold write at h
  split at h
  · next hin =>
    cases h
    split
    · next heq =>
      subst heq
      rw [read_eq_cells]
      simp [hin.1]
    · next hne =>
      unfold read
      dsimp only
      by_cases hother : 0 ≤ other ∧ other < m.size
      · have : address.toNat ≠ other.toNat := by omega
        simp only [hother, and_self, ↓reduceDIte]
        rw [Array.getElem_set_ne _ _ this]
      · simp [hother]
  · cases h

theorem size_load {m n : Memory} {program : List Word} (h : m.load program = .ok n) :
    n.size = m.size := by
  unfold load at h
  split at h
  · cases h; rfl
  · cases h

/-- A loaded program is read back line by line, and the words behind it are as before. -/
theorem read_load {m n : Memory} {program : List Word} (h : m.load program = .ok n)
    {address : Nat} :
    n.read address = match program[address]? with
      | some word => .ok word
      | none => m.read address := by
  have hsize := m.size_cells
  unfold load at h
  split at h
  · next hfits =>
    cases h
    split
    · next word hword =>
      rw [read_eq_cells]
      obtain ⟨hlt, hget⟩ := List.getElem?_eq_some_iff.1 hword
      simp [Array.getElem?_append, hlt, hget]
    · next hnone =>
      have hge := List.getElem?_eq_none_iff.1 hnone
      unfold read
      dsimp only
      by_cases hin : (0 : Int) ≤ address ∧ (address : Int) < m.size
      · have hplace : program.length + (address - program.length) = address := by omega
        rw [dif_pos hin, dif_pos hin]
        simp [Array.getElem_append, Nat.not_lt.2 hge, hplace]
      · rw [dif_neg hin, dif_neg hin]
  · cases h

/-- Untouched memory with a program holds the program and nothing else. -/
theorem load_blank {size : Int} {program : List Word} (h : program.length ≤ size) :
    (blank size).load program = .ok {
      size
      cells := (program ++ List.replicate (size.toNat - program.length) Word.empty).toArray
      size_cells := by simp; omega } := by
  have hroom : program.length ≤ (blank size).size := h
  rw [load, dif_pos hroom]
  simp [blank, ← Array.toList_inj]

/-- **A memory of a size is determined by what is read from it.** -/
theorem eq_of_read_eq {m n : Memory} (hsize : m.size = n.size)
    (h : ∀ address, 0 ≤ address → address < m.size → m.read address = n.read address) : m = n := by
  have hm := m.size_cells
  have hn := n.size_cells
  have hcells : m.cells = n.cells := by
    refine Array.ext (by rw [hm, hn, hsize]) fun i him hin => ?_
    have hread := h i (by omega) (by omega)
    unfold read at hread
    rw [dif_pos (by omega), dif_pos (by omega)] at hread
    exact Except.ok.inj hread
  cases m
  cases n
  cases hsize
  cases hcells
  rfl

/-! ### The cells that have been written to -/

theorem mem_written_iff {address : Nat} {words : List Word} {cell : Int × Word} :
    cell ∈ written address words ↔
      ∃ i : Nat, cell.1 = address + i ∧ words[i]? = some cell.2 ∧ ¬ cell.2.isEmpty := by
  induction words generalizing address with
  | nil => simp [written]
  | cons word words ih =>
    have hbehind : cell ∈ written (address + 1) words ↔
        ∃ i : Nat, cell.1 = address + (i + 1 : Nat) ∧
          (word :: words)[i + 1]? = some cell.2 ∧ ¬ cell.2.isEmpty := by
      rw [ih]
      refine exists_congr fun i => and_congr_left' ?_
      omega
    unfold written
    constructor
    · intro h
      split at h
      · obtain ⟨i, hi⟩ := hbehind.1 h
        exact ⟨i + 1, hi⟩
      · next hword =>
        rcases List.mem_cons.1 h with rfl | h
        · exact ⟨0, rfl, rfl, hword⟩
        · obtain ⟨i, hi⟩ := hbehind.1 h
          exact ⟨i + 1, hi⟩
    · rintro ⟨i, haddress, hword, hwritten⟩
      cases i with
      | zero =>
        obtain rfl := Option.some.inj hword
        rw [if_neg hwritten]
        have hcell : cell = ((address : Int), cell.2) := Prod.ext haddress rfl
        rw [← hcell]
        exact List.mem_cons_self ..
      | succ i =>
        have h := hbehind.2 ⟨i, haddress, hword, hwritten⟩
        split
        · exact h
        · exact List.mem_cons_of_mem _ h

/-- **The cells that have been written to are those that hold a word.** -/
theorem mem_used_iff {m : Memory} {cell : Int × Word} :
    cell ∈ m.used.toList ↔ m.read cell.1 = .ok cell.2 ∧ ¬ cell.2.isEmpty := by
  rw [read_eq_cells, ← Array.getElem?_toList]
  refine mem_written_iff.trans ⟨?_, ?_⟩
  · rintro ⟨i, haddress, hword, hwritten⟩
    have hindex : cell.1.toNat = i := by omega
    exact ⟨⟨by omega, hindex.symm ▸ hword⟩, hwritten⟩
  · rintro ⟨⟨h0, hword⟩, hwritten⟩
    exact ⟨cell.1.toNat, by omega, hword, hwritten⟩

/-- They are listed upward. -/
theorem pairwise_written (address : Nat) (words : List Word) :
    (written address words).Pairwise fun cell next => cell.1 < next.1 := by
  induction words generalizing address with
  | nil => exact .nil
  | cons word words ih =>
    unfold written
    split
    · exact ih (address + 1)
    · refine .cons (fun next hnext => ?_) (ih (address + 1))
      have hle := le_of_mem_written hnext
      dsimp only
      omega

end Memory

end Accumulator
