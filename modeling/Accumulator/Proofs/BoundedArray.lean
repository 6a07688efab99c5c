import Accumulator.Memory.Lemmas
import Accumulator.Proofs.Refusal

/-!
# Memory as a bounded array

A memory is changed by writing a word, by loading a program and by clearing it (`Change`).  A change
for which it has not the cells is refused, and changes nothing.

What is read from a memory after any sequence of changes is told by the changes alone
(`read_after`): it is the word that was put at the address last (`lastPut`), by a write or by a line
of a program, where clearing puts the empty word everywhere.  Writing the cells that have been
written to into a new memory makes the same memory again (`after_writes_used`).  All this is put
together in `behaves_as_bounded_array`.
-/

namespace Accumulator.Memory

variable {m initial : Memory} {size address : Int} {program : List Word}

/-! ### Changes -/

/-- What can be asked of a memory that changes it. -/
inductive Change
  | write (address : Int) (word : Word)
  | load (program : List Word)
  | clear

/-- The changed memory, unless the change is refused. -/
def attempt (m : Memory) : Change → Except Failure Memory
  | .write address word => m.write address word
  | .load program => m.load program
  | .clear => .ok m.clear

/-- What a change comes to: the memory behind it, and whether it was refused. -/
def respond (m : Memory) (change : Change) : Memory × Except Failure Unit :=
  match m.attempt change with
  | .error failure => (m, .error failure)
  | .ok changed => (changed, .ok ())

/-- The memory after a sequence of changes. -/
def after (m : Memory) (changes : List Change) : Memory :=
  changes.foldl (fun m change => (m.respond change).1) m

theorem after_append_singleton (m : Memory) (changes : List Change) (change : Change) :
    m.after (changes ++ [change]) = ((m.after changes).respond change).1 := by
  rw [after, List.foldl_append]
  rfl

theorem respond_of_attempt {change : Change} {changed : Memory}
    (h : m.attempt change = .ok changed) : m.respond change = (changed, .ok ()) := by
  rw [respond, h]

/-! ### Refusals -/

/-- An address outside memory is refused whether it is to be read or written. -/
theorem read_of_outside (h : ¬ (0 ≤ address ∧ address < m.size)) :
    m.read address = .error (.ofCause (.outsideMemory address m.size)) :=
  dif_neg h

theorem respond_write_of_outside (h : ¬ (0 ≤ address ∧ address < m.size)) (word : Word) :
    m.respond (.write address word) = (m, .error (.ofCause (.outsideMemory address m.size))) := by
  have hwrite : m.attempt (.write address word) =
      .error (.ofCause (.outsideMemory address m.size)) := dif_neg h
  rw [respond, hwrite]

/-- A program without room is refused. -/
theorem respond_load_of_size_lt (h : m.size < program.length) :
    m.respond (.load program) =
      (m, .error (.ofCause (.programTooLarge program.length m.size))) := by
  have hload : m.attempt (.load program) =
      .error (.ofCause (.programTooLarge program.length m.size)) := dif_neg (Int.not_le.2 h)
  rw [respond, hload]

/-! ### Reading what was put -/

/-- The word that a change puts at an address of a memory of a size, if it puts one there. -/
def Change.puts? (size address : Int) : Change → Option Word
  | write written word => if address = written then some word else none
  | load program =>
    if 0 ≤ address ∧ program.length ≤ size then program[address.toNat]? else none
  | clear => some .empty

/-- The word that was put at an address last; the empty word if none was. -/
def lastPut (size address : Int) (changes : List Change) : Word :=
  (changes.reverse.findSome? (Change.puts? size address)).getD .empty

theorem lastPut_append_singleton (size address : Int) (changes : List Change) (change : Change) :
    lastPut size address (changes ++ [change]) =
      (change.puts? size address).getD (lastPut size address changes) := by
  rw [lastPut, List.reverse_append, List.reverse_singleton, List.singleton_append,
    List.findSome?_cons]
  cases change.puts? size address <;> rfl

/-- A change that is not refused puts its words into memory and leaves all others alone; one that is
refused has no words to put. -/
theorem attempt_cases (m : Memory) (change : Change) :
    (∃ changed, m.attempt change = .ok changed ∧ changed.size = m.size ∧
      ∀ address, 0 ≤ address → address < m.size → changed.read address =
        ((change.puts? m.size address).map Except.ok).getD (m.read address)) ∨
    (∃ failure, m.attempt change = .error failure) ∧
      ∀ address, 0 ≤ address → address < m.size → change.puts? m.size address = none := by
  cases change with
  | write written word =>
    by_cases h : 0 ≤ written ∧ written < m.size
    · have hwrite : m.write written word = .ok _ := dif_pos h
      refine Or.inl ⟨_, hwrite, size_write hwrite, fun address _ _ => ?_⟩
      rw [read_write hwrite, Change.puts?]
      split <;> rfl
    · refine Or.inr ⟨⟨_, dif_neg h⟩, fun address h0 hlt => if_neg ?_⟩
      rintro rfl
      exact h ⟨h0, hlt⟩
  | load program =>
    by_cases h : (program.length : Int) ≤ m.size
    · have hload : m.load program = .ok _ := dif_pos h
      refine Or.inl ⟨_, hload, size_load hload, fun address h0 _ => ?_⟩
      obtain ⟨index, rfl⟩ := Int.eq_ofNat_of_zero_le h0
      rw [read_load hload, Change.puts?, if_pos ⟨h0, h⟩, Int.toNat_natCast]
      cases program[index]? <;> rfl
    · exact Or.inr ⟨⟨_, dif_neg h⟩, fun address _ _ => if_neg fun hroom => h hroom.2⟩
  | clear => exact Or.inl ⟨m.clear, rfl, rfl, fun address h0 hlt => read_blank h0 hlt⟩

theorem size_respond (m : Memory) (change : Change) : (m.respond change).1.size = m.size := by
  rcases m.attempt_cases change with ⟨changed, hattempt, hsize, -⟩ | ⟨⟨failure, hattempt⟩, -⟩
  · rw [respond, hattempt]
    exact hsize
  · rw [respond, hattempt]

/-- A change puts its words into memory, if it has any to put. -/
theorem read_respond (m : Memory) (change : Change) (h0 : 0 ≤ address) (hlt : address < m.size) :
    (m.respond change).1.read address =
      ((change.puts? m.size address).map Except.ok).getD (m.read address) := by
  rcases m.attempt_cases change with ⟨changed, hattempt, -, hread⟩ | ⟨⟨failure, hattempt⟩, hnone⟩
  · rw [respond, hattempt]
    exact hread address h0 hlt
  · rw [respond, hattempt, hnone address h0 hlt]
    rfl

theorem size_after (m : Memory) (changes : List Change) : (m.after changes).size = m.size := by
  induction changes using List.reverseRecOn with
  | nil => rfl
  | append_singleton changes change ih =>
    rw [after_append_singleton, size_respond, ih]

/-- **What is read is the word that was put there last.** -/
theorem read_after (size : Int) (changes : List Change) (h0 : 0 ≤ address) (hlt : address < size) :
    ((blank size).after changes).read address = .ok (lastPut size address changes) := by
  have hsize : ∀ changes, ((blank size).after changes).size = size := (blank size).size_after
  induction changes using List.reverseRecOn with
  | nil => exact read_blank h0 hlt
  | append_singleton changes change ih =>
    rw [after_append_singleton, read_respond _ _ h0 (by rw [hsize]; exact hlt), hsize, ih,
      lastPut_append_singleton]
    cases change.puts? size address <;> rfl

/-! ### Writing what was read -/

/-- The writes that put the given cells into a memory. -/
def writes (cells : OrderedMap Int Word) : List Change :=
  cells.toList.map fun cell => .write cell.1 cell.2

theorem lastPut_writes (size address : Int) (cells : OrderedMap Int Word) :
    lastPut size address (writes cells) = (cells.get? address).getD .empty := by
  have hput : ∀ word, (∃ change ∈ writes cells, change.puts? size address = some word) ↔
      cells.get? address = some word := by
    intro word
    rw [OrderedMap.get?_eq_some_iff]
    constructor
    · rintro ⟨change, hchange, hputs⟩
      obtain ⟨cell, hcell, rfl⟩ := List.mem_map.1 hchange
      obtain ⟨rfl, hword⟩ := Option.ite_none_right_eq_some.1 hputs
      rwa [← Option.some.inj hword]
    · intro h
      exact ⟨_, List.mem_map_of_mem h, if_pos rfl⟩
  have hlast : (writes cells).reverse.findSome? (Change.puts? size address) =
      cells.get? address := by
    cases hfind : (writes cells).reverse.findSome? (Change.puts? size address) with
    | some word =>
      obtain ⟨change, hchange, hputs⟩ := List.exists_of_findSome?_eq_some hfind
      exact ((hput word).1 ⟨change, List.mem_reverse.1 hchange, hputs⟩).symm
    | none =>
      have hnone := List.findSome?_eq_none_iff.1 hfind
      refine (Option.eq_none_iff_forall_ne_some.2 fun word hword => ?_).symm
      obtain ⟨change, hchange, hputs⟩ := (hput word).2 hword
      cases hputs.symm.trans (hnone change (List.mem_reverse.2 hchange))
  rw [lastPut, hlast]

/-- **Memory is made again by writing the cells that have been written to.** -/
theorem after_writes_used (m : Memory) : (blank m.size).after (writes m.used) = m := by
  have hsize := (blank m.size).size_after (writes m.used)
  refine eq_of_read_eq hsize fun address h0 hlt => ?_
  replace hlt : address < m.size := hsize ▸ hlt
  obtain ⟨word, hword⟩ := exists_read_eq_ok_iff.2 ⟨h0, hlt⟩
  rw [read_after m.size _ h0 hlt, lastPut_writes, hword]
  cases hcell : m.used.get? address with
  | some found =>
    have hread := (mem_used_iff.1 (OrderedMap.get?_eq_some_iff.1 hcell)).1
    exact hread.symm.trans hword
  | none =>
    -- a cell that is not listed is empty
    have hempty : word.isEmpty := by
      by_contra hwritten
      have hmem : (address, word) ∈ m.used.toList := mem_used_iff.2 ⟨hword, hwritten⟩
      cases hcell.symm.trans (OrderedMap.get?_eq_some_iff.2 hmem)
    exact congrArg Except.ok (eq_of_beq hempty).symm

/-! ### All together -/

/-- An index and the integer before it are short enough to be written. -/
theorem fits_of_isIndex {n : Int} (h : isIndex n) : Numeral.fits n ∧ Numeral.fits (n - 1) := by
  have hroom : (9223372036854775809 : Int).natAbs < Numeral.bound := by decide +kernel
  have hbounds := isIndex_iff.1 h
  exact ⟨Numeral.fits_of_natAbs_le (by omega) hroom, Numeral.fits_of_natAbs_le (by omega) hroom⟩

/-- A new memory is blank, and its size is an index. -/
theorem of_new {room : Int} (h : Memory.new size room = .ok initial) :
    initial = blank size ∧ isIndex size := by
  unfold Memory.new sizeError? at h
  split at h
  · cases h
  · next hsize =>
    refine ⟨(Except.ok.inj h).symm, ?_⟩
    by_contra hnot
    rw [if_pos (by simpa using hnot)] at hsize
    cases hsize

/-- **Memory is a bounded array.**  After any sequence of changes to a new memory, the addresses
from zero up to the size, and no others, can be read, and what is read is the word that was put
there last.  A write to such an address puts the word there and leaves all other words alone.  A
read or a write outside memory is refused as such, and a program of more lines than there are cells
as too large, and then nothing is changed (the messages name the address and the number of lines,
which must not be too long to be written).  Any other program is put into the first cells, and the
words behind it stay as they were.  The cells listed as written to are those that hold a word that
is not empty, upward, and writing them into the new memory makes the same memory. -/
theorem behaves_as_bounded_array {size room : Int} {initial : Memory}
    (h : Memory.new size room = .ok initial) (changes : List Change) :
    let m := initial.after changes
    (∀ address, 0 ≤ address → address < size →
      m.read address = .ok (lastPut size address changes) ∧
      ∀ word, ∃ changed, m.respond (.write address word) = (changed, .ok ()) ∧
        changed.read address = .ok word ∧
        ∀ other, other ≠ address → changed.read other = m.read other) ∧
    (∀ address, ¬ (0 ≤ address ∧ address < size) →
      ∃ cause : Cause, cause.kind = .outOfBounds ∧
        (Numeral.fits address → Failure.ofCause cause = .fault { cause }) ∧
        m.read address = .error (.ofCause cause) ∧
        ∀ word, m.respond (.write address word) = (m, .error (.ofCause cause))) ∧
    (∀ program : List Word, size < program.length →
      ∃ cause : Cause, cause.kind = .programTooLarge ∧
        (Numeral.fits program.length → Failure.ofCause cause = .fault { cause }) ∧
        m.respond (.load program) = (m, .error (.ofCause cause))) ∧
    (∀ program : List Word, program.length ≤ size →
      ∃ changed, m.respond (.load program) = (changed, .ok ()) ∧
        ∀ address : Nat, changed.read address =
          (program[address]?.map Except.ok).getD (m.read address)) ∧
    m.used.toList.Pairwise (fun cell next => cell.1 < next.1) ∧
    (∀ address word,
      (address, word) ∈ m.used.toList ↔ m.read address = .ok word ∧ word ≠ .empty) ∧
    initial.after (m.used.toList.map fun cell => .write cell.1 cell.2) = m := by
  intro m
  obtain ⟨rfl, hindex⟩ := of_new h
  obtain ⟨hfits, hfits'⟩ := fits_of_isIndex hindex
  have hsize : m.size = size := (blank size).size_after changes
  refine ⟨fun address h0 hlt => ⟨read_after size changes h0 hlt, fun word => ?_⟩,
    fun address hout => ?_, fun program hgt => ?_, fun program hle => ?_,
    pairwise_written 0 _, fun address word => ?_, ?_⟩
  · have hwrite : m.write address word = .ok _ := dif_pos ⟨h0, hsize.symm ▸ hlt⟩
    refine ⟨_, respond_of_attempt hwrite, ?_, fun other hother => ?_⟩
    · rw [read_write hwrite, if_pos rfl]
    · rw [read_write hwrite, if_neg hother]
  · rw [← hsize] at hout hfits'
    refine ⟨_, rfl, fun haddress => Failure.ofCause_of_fits fun n hn => ?_, read_of_outside hout,
      respond_write_of_outside hout⟩
    obtain rfl | rfl : n = address ∨ n = m.size - 1 := by simpa [Cause.numerals] using hn
    · exact haddress
    · exact hfits'
  · rw [← hsize] at hgt hfits
    refine ⟨_, rfl, fun hlength => Failure.ofCause_of_fits fun n hn => ?_,
      respond_load_of_size_lt hgt⟩
    obtain rfl | rfl : n = program.length ∨ n = m.size := by simpa [Cause.numerals] using hn
    · exact hlength
    · exact hfits
  · have hload : m.load program = .ok _ := dif_pos (hsize.symm ▸ hle)
    refine ⟨_, respond_of_attempt hload, fun address => ?_⟩
    rw [read_load hload]
    cases program[address]? <;> rfl
  · rw [mem_used_iff, Word.isEmpty, beq_iff_eq]
  · rw [← hsize]
    exact m.after_writes_used

/-- A write behind a program, a program without room, and a shorter program over the first one. -/
def overlaid : List Change := [
  .load [.text "LDI 5", .text "XCH"],
  .write 2 (.text "0"),
  .load (List.replicate 4 (.text "ADD")),
  .write (-1) (.text "1"),
  .load [.text "HLT"]]

theorem behaves_as_bounded_array_overlaid :
    let m := (blank 3).after overlaid
    Memory.new 3 = .ok (blank 3) ∧
      m.read 0 = .ok (.text "HLT") ∧ m.read 1 = .ok (.text "XCH") ∧ m.read 2 = .ok (.text "0") ∧
      (∃ cause : Cause, cause.kind = .outOfBounds ∧ m.read 3 = .error (.fault { cause })) ∧
      (blank 3).after (m.used.toList.map fun cell => .write cell.1 cell.2) = m := by
  intro m
  have hnew : Memory.new 3 = .ok (blank 3) := rfl
  have hfits : Numeral.fits 3 := (fits_of_isIndex (by decide)).1
  obtain ⟨hread, hrefused, -, -, -, -, hwritten⟩ := behaves_as_bounded_array hnew overlaid
  obtain ⟨cause, hkind, hfault, hthree, -⟩ := hrefused 3 (by decide)
  rw [hfault hfits] at hthree
  exact ⟨hnew, (hread 0 (by decide) (by decide)).1, (hread 1 (by decide) (by decide)).1,
    (hread 2 (by decide) (by decide)).1, ⟨cause, hkind, hthree⟩, hwritten⟩

end Accumulator.Memory
