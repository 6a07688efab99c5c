import Accumulator.Memory.Listing
import Accumulator.Proofs.BoundedArray
import Accumulator.Proofs.Rows
import Accumulator.Proofs.Writing
import Mathlib.Data.Int.Range

/-!
# What a listing shows

A listing has a row for each address of its range up to the end of memory, and a row shows the word
of a cell under an address (`row`).  The address is that of the cell as long as it is not below
zero.  Below zero it stands for a cell counted back from the end (`place`), so that a cell is shown
under an address that memory does not have, and if there is no such cell there is no listing at all
(`gives_listing`).

So a listing shows what its range has of memory, and nothing else (`ShowsRange`), exactly if no
address below zero is asked for and no word in the range is an integer that is too long to be
written (`shows_range_iff`).
-/

namespace Accumulator

theorem Gives.mapError {ε δ α : Type} {x : Except ε α} {P : Prop} {a : α} (h : Gives x P a)
    (f : ε → δ) : Gives (x.mapError f) P a := by
  intro b
  rw [← h b]
  cases x with
  | error e => exact ⟨fun h => (by cases h), fun h => by cases h⟩
  | ok c => exact ⟨fun h => congrArg Except.ok (Except.ok.inj h), fun h =>
      congrArg Except.ok (Except.ok.inj h)⟩

namespace Memory

open Numeral (decimal fits)

variable {m : Memory} {start length address : Int} {word : Word}

/-! ### Rows -/

/-- The text under which a word is listed. -/
def listedText (word : Word) : String := if word = .empty then "-" else word.plain

/-- The row that shows, under a label, the word at an address. -/
def row (m : Memory) (label address : Int) : String :=
  match m.read address with
  | .error _ => ""
  | .ok word =>
    Text.flushRight 3 (decimal label) ++ " " ++ (if label < 128 then "P" else "D") ++ "  " ++
      listedText word

/-- The address of the cell that a listing shows under an address. -/
def place (m : Memory) (address : Int) : Int :=
  if address < 0 then m.cells.size + address else address

/-- Whether an address stands for a cell, and the word in it can be written. -/
def IsListed (m : Memory) (address : Int) : Prop :=
  ∃ word, m.read (m.place address) = .ok word ∧ ∀ n ∈ word.numerals, fits n

/-- An address that has its place in memory is an index. -/
theorem isIndex_of_place (hsize : isIndex m.size) (h0 : 0 ≤ m.place address)
    (hlt : m.place address < m.cells.size) : isIndex address := by
  have hcells := m.size_cells
  have hbounds := isIndex_iff.1 hsize
  rw [isIndex_iff]
  unfold place at h0 hlt
  split at h0 <;> omega

/-- What is listed under an address is what is read at its place. -/
theorem listed_eq_ok_iff (hsize : isIndex m.size) :
    m.listed address = .ok word ↔ m.read (m.place address) = .ok word := by
  rw [read_eq_cells]
  unfold listed
  dsimp only
  rw [← place]
  by_cases h : 0 ≤ m.place address ∧ m.place address < m.cells.size
  · have hlt : (m.place address).toNat < m.cells.size := by omega
    simp [isIndex_of_place hsize h.1 h.2, Int.not_lt.2 h.1, h.1, hlt]
  · refine ⟨fun hlisted => ?_, fun hread => ?_⟩
    · split at hlisted
      · cases hlisted
      · split at hlisted
        · cases hlisted
        · have hnone : m.cells[(m.place address).toNat]? = none :=
            Array.getElem?_eq_none (by omega)
          rw [hnone] at hlisted
          cases hlisted
    · obtain ⟨hlt, -⟩ := Array.getElem?_eq_some_iff.1 hread.2
      omega

theorem gives_listedText (word : Word) :
    Gives (if word.isEmpty then .ok "-" else word.write) (∀ n ∈ word.numerals, fits n)
      (listedText word) := by
  rw [listedText, Word.isEmpty]
  split
  · next hempty =>
    rw [eq_of_beq hempty, if_pos rfl]
    exact (Gives.pure "-").congr (by simp [Word.empty, Word.numerals, Numeral.fits_zero])
  · next hwritten =>
    rw [if_neg (by simpa using hwritten)]
    exact Word.gives_write word

/-- **A row is listed exactly if its address stands for a cell with a word that can be written.** -/
theorem gives_listingLine (hsize : isIndex m.size) (address : Int) :
    Gives (m.listingLine address) (m.IsListed address) (m.row address (m.place address)) := by
  unfold listingLine IsListed row
  cases hread : m.read (m.place address) with
  | error failure =>
    intro line
    cases hlisted : m.listed address with
    | error error =>
      constructor
      · intro h
        cases h
      · rintro ⟨⟨word, hword, -⟩, -⟩
        cases hword
    | ok word => cases hread.symm.trans ((listed_eq_ok_iff hsize).1 hlisted)
  | ok word =>
    obtain ⟨h0, hcell⟩ := read_eq_cells.1 hread
    obtain ⟨hlt, -⟩ := Array.getElem?_eq_some_iff.1 hcell
    have hindex : isIndex address := isIndex_of_place hsize h0 (by omega)
    have hline : ∀ text : String, Gives
        ((Numeral.write address).mapError ListingError.overlong >>= fun number =>
          pure (Text.flushRight 3 number ++ " " ++ region address ++ "  " ++ text))
        (fits address)
        (Text.flushRight 3 (decimal address) ++ " " ++ region address ++ "  " ++ text) :=
      fun text => ((Numeral.gives_write address).mapError ListingError.overlong).map
    have hword : Gives (m.listed address) True word := by
      rw [(listed_eq_ok_iff hsize).2 hread]
      exact Gives.pure word
    refine (hword.bind (Q := (∀ n ∈ word.numerals, fits n) ∧ fits address) ?_).congr ?_
    · refine ((gives_listedText word).mapError ListingError.overlong).bind ?_
      exact hline (listedText word)
    · simp [(fits_of_isIndex hindex).1]

theorem listingLines_eq_mapM (m : Memory) (start : Int) (count : Nat) :
    m.listingLines start count = (Int.range start (start + count)).mapM m.listingLine := by
  have hrange : ∀ (start : Int) (n : Nat),
      Int.range start (start + n) = (List.range n).map fun i : Nat => start + i := by
    intro start n
    have hcount : (start + n - start).toNat = n := by omega
    rw [Int.range, hcount]
  induction count generalizing start with
  | zero =>
    rw [hrange]
    rfl
  | succ count ih =>
    have hbehind : ((fun i : Nat => start + (i : Int)) ∘ Nat.succ) =
        fun i : Nat => start + 1 + i := by
      funext i
      simp only [Function.comp_apply]
      omega
    rw [hrange, List.range_succ_eq_map, List.map_cons, List.map_map, hbehind, List.mapM_cons,
      listingLines, ih, hrange]
    simp

/-- **A listing is the stack of the rows of its range.** -/
theorem gives_listing (hsize : isIndex m.size) (start length : Int) :
    let addresses := Int.range start (min (start + length) m.size)
    Gives (m.listing start length) (∀ address ∈ addresses, m.IsListed address)
      (Text.stack (addresses.map fun address => m.row address (m.place address))) := by
  intro addresses
  have hlines : m.listingLines start (min (start + length) m.size - start).toNat =
      addresses.mapM m.listingLine := by
    have hcount : (start + (min (start + length) m.size - start).toNat - start).toNat =
        (min (start + length) m.size - start).toNat := by omega
    rw [listingLines_eq_mapM, Int.range, hcount]
    rfl
  have hmapM := Gives.mapM (gives_listingLine hsize) addresses
  rw [listing, hlines]
  exact hmapM.map

/-! ### Labels -/

/-- The first character of a text that is no space. -/
def lead (s : String) : Option Char := s.toList.find? (· ≠ ' ')

/-- A stack begins with its first row, and a row with its label. -/
theorem lead_stack_row (label : Int) (hread : m.read address = .ok word) (rows : List String) :
    lead (Text.stack (m.row label address :: rows)) = (decimal label).toList.head? := by
  obtain ⟨rest, hrest⟩ : ∃ rest, (Text.stack (m.row label address :: rows)).toList =
      (m.row label address).toList ++ rest := by
    by_cases hrows : rows = []
    · subst hrows
      exact ⟨[], by rw [Text.stack, String.intercalate_singleton, List.append_nil]⟩
    · rw [Text.stack_cons hrows, String.toList_append, String.toList_append, List.append_assoc]
      exact ⟨_, rfl⟩
  obtain ⟨c, cs, hlabel⟩ := List.exists_cons_of_ne_nil (Numeral.toList_decimal_ne_nil label)
  have hsolid : c ≠ ' ' := by
    rintro rfl
    have hblank := Numeral.isBlank_of_mem_decimal (hlabel ▸ List.mem_cons_self ..)
    cases hblank
  rw [lead, hrest, row, hread, Text.flushRight, Text.filler]
  simp only [String.toList_append, String.toList_ofList, List.append_assoc]
  rw [List.find?_append, List.find?_replicate_of_neg (by simp), Option.none_or, hlabel,
    List.cons_append, List.find?_cons_of_pos (by simpa using hsolid), List.head?_cons]

/-- The first character of a numeral tells the sign. -/
theorem head?_decimal_iff {n : Int} : (decimal n).toList.head? = some '-' ↔ n < 0 := by
  rw [Numeral.toList_decimal]
  split
  · next hneg => simp [hneg]
  · next hnonneg =>
    refine ⟨fun h => ?_, fun h => absurd h hnonneg⟩
    have hdigit := Numeral.isDigit_of_mem_toDigits (List.mem_of_mem_head? h)
    cases hdigit

theorem range_of_lt {stop : Int} (h : start < stop) :
    ∃ rest, Int.range start stop = start :: rest := by
  obtain ⟨count, hcount⟩ : ∃ count, (stop - start).toNat = count + 1 :=
    ⟨(stop - start).toNat - 1, by omega⟩
  rw [Int.range, hcount, List.range_succ_eq_map, List.map_cons, Int.natCast_zero, Int.add_zero]
  exact ⟨_, rfl⟩

theorem pairwise_range (start stop : Int) : (Int.range start stop).Pairwise (· < ·) := by
  rw [Int.range, List.pairwise_map]
  exact List.pairwise_lt_range.imp fun h => by omega

/-! ### Ranges -/

/-- Whether a listing shows the addresses of its range that memory has, and nothing else: one row
for each of them, upward, with the word in the cell. -/
def ShowsRange (m : Memory) (start length : Int) : Prop :=
  ∃ addresses : List Int, addresses.Pairwise (· < ·) ∧
    (∀ address, address ∈ addresses ↔
      max start 0 ≤ address ∧ address < min (start + length) m.size) ∧
    m.listing start length = .ok (Text.stack (addresses.map fun address => m.row address address))

/-- A listing that shows its range does not begin below zero. -/
theorem ShowsRange.nonneg (hsize : isIndex m.size) (h : m.ShowsRange start length)
    (hstart : start ≤ address) (hstop : address < min (start + length) m.size) : 0 ≤ address := by
  obtain ⟨addresses, -, hmem, hlisting⟩ := h
  obtain ⟨hlisted, htext⟩ := (gives_listing hsize start length _).1 hlisting
  by_contra hneg
  obtain ⟨rest, hrest⟩ := range_of_lt (Int.lt_of_le_of_lt hstart hstop)
  -- the first label of what is listed has a minus sign
  obtain ⟨found, hfound, -⟩ := hlisted start (hrest ▸ List.mem_cons_self ..)
  rw [hrest, List.map_cons] at htext
  have hlead := lead_stack_row start hfound
    (rest.map fun address => m.row address (m.place address))
  rw [← htext, head?_decimal_iff.2 (by omega)] at hlead
  -- no label of what should be listed has
  cases haddresses : addresses with
  | nil =>
    rw [haddresses] at hlead
    cases hlead
  | cons first others =>
    obtain ⟨h0, hlt⟩ := (hmem first).1 (haddresses ▸ List.mem_cons_self ..)
    have hread : ∃ word, m.read first = .ok word :=
      exists_read_eq_ok_iff.2 ⟨by omega, by omega⟩
    obtain ⟨word, hword⟩ := hread
    rw [haddresses, List.map_cons, lead_stack_row first hword] at hlead
    have hminus := head?_decimal_iff.1 hlead
    omega

/-- **A listing shows its range unless it goes below zero.**  It has exactly one row for each
address of the range that memory has, upward, and each row has the address, the region and the word
in the cell, if and only if no address below zero is asked for and no word that is asked for is an
integer too long to be written.  (A memory of which the size is no index does not exist.) -/
theorem shows_range_iff (m : Memory) (hsize : isIndex m.size) (start length : Int) :
    m.ShowsRange start length ↔
      ∀ address, start ≤ address → address < start + length → address < m.size →
        0 ≤ address ∧ ∀ word, m.read address = .ok word → ∀ n ∈ word.numerals, fits n := by
  constructor
  · intro h address hstart hstop hlt
    have h0 := h.nonneg hsize hstart (by omega)
    refine ⟨h0, fun word hword => ?_⟩
    obtain ⟨addresses, -, -, hlisting⟩ := h
    obtain ⟨hlisted, -⟩ := (gives_listing hsize start length _).1 hlisting
    obtain ⟨found, hfound, hfits⟩ := hlisted address (Int.mem_range_iff.2 ⟨hstart, by omega⟩)
    rw [place, if_neg (Int.not_lt.2 h0), hword] at hfound
    rwa [Except.ok.inj hfound]
  · intro h
    have hplace : ∀ address ∈ Int.range start (min (start + length) m.size),
        0 ≤ address ∧ m.place address = address := by
      intro address haddress
      obtain ⟨hstart, hstop⟩ := Int.mem_range_iff.1 haddress
      have h0 := (h address hstart (by omega) (by omega)).1
      exact ⟨h0, if_neg (Int.not_lt.2 h0)⟩
    refine ⟨_, pairwise_range start (min (start + length) m.size), fun address => ?_,
      (gives_listing hsize start length _).2 ⟨fun address haddress => ?_, ?_⟩⟩
    · rw [Int.mem_range_iff]
      constructor
      · rintro ⟨hstart, hstop⟩
        have h0 := (h address hstart (by omega) (by omega)).1
        omega
      · omega
    · obtain ⟨hstart, hstop⟩ := Int.mem_range_iff.1 haddress
      obtain ⟨h0, hself⟩ := hplace address haddress
      have hread : ∃ word, m.read address = .ok word :=
        exists_read_eq_ok_iff.2 ⟨h0, by omega⟩
      obtain ⟨word, hword⟩ := hread
      exact ⟨word, by rw [hself, hword], (h address hstart (by omega) (by omega)).2 word hword⟩
    · refine congrArg Text.stack (List.map_congr_left fun address haddress => ?_)
      rw [(hplace address haddress).2]

/-- Two cells, the second of which holds a line of a program. -/
def halfFull : Memory := (blank 2).after [.write 1 (.text "LDI 5")]

theorem shows_range_halfFull :
    isIndex halfFull.size ∧ halfFull.ShowsRange 0 16 ∧ ¬ halfFull.ShowsRange (-1) 2 := by
  have hsize : isIndex halfFull.size := by decide
  refine ⟨hsize, (shows_range_iff halfFull hsize 0 16).2 fun address hstart _ hlt => ?_,
    fun h => ?_⟩
  · have hcells : halfFull.read 0 = .ok .empty ∧ halfFull.read 1 = .ok (.text "LDI 5") := ⟨rfl, rfl⟩
    refine ⟨hstart, fun word hword n hn => ?_⟩
    obtain rfl | rfl : address = 0 ∨ address = 1 := by
      change address < 2 at hlt
      omega
    · rw [hcells.1] at hword
      cases hword
      obtain rfl : n = 0 := List.mem_singleton.1 hn
      exact Numeral.fits_zero
    · rw [hcells.2] at hword
      cases hword
      cases hn
  · have hneg :=
      (shows_range_iff halfFull hsize (-1) 2).1 h (-1) (by decide) (by decide) (by decide)
    exact absurd hneg.1 (by decide)

/-- An address below zero is listed with the word of the cell that it is counted back to. -/
example : (halfFull.listing (-1) 2).toOption = some " -1 P  LDI 5\n  0 P  -" := by decide +kernel

/-- A listing that begins below zero shows more than memory has. -/
theorem not_always_shows_range :
    ¬ ∀ (m : Memory) (start length : Int), isIndex m.size → m.ShowsRange start length := by
  intro h
  have hsize : isIndex halfFull.size := by decide
  have hshows := h halfFull (-1) 2 hsize
  exact absurd (hshows.nonneg hsize (Int.le_refl (-1)) (by decide)) (by decide)

end Memory

end Accumulator
