import Accumulator.Proofs.JsonText
import Accumulator.Proofs.Writing
import Accumulator.Snapshot.Json

/-!
# What the JSON dump tells

The JSON dump of a snapshot is the text of a JSON value (`Snapshot.tree`), and it is written exactly
if no integer of the snapshot is too long (`Snapshot.gives_json`).  The value has a member for
each field, and one for each entry of memory and symbol table, so that it determines the snapshot
(`Snapshot.tree_injective`).  Since JSON text stands for one value only, the dump loses nothing
(`Snapshot.json_injective`).
-/

namespace Accumulator

namespace Text.Json.Members

/-- The members with the given names and values. -/
def ofList : List (String × Value) → Members
  | [] => .nil
  | entry :: entries => .cons entry.1 entry.2 (ofList entries)

theorem texts_ofList (depth : Nat) (entries : List (String × Value)) :
    (ofList entries).texts depth =
      entries.map fun entry => member entry.1 (entry.2.text depth) := by
  induction entries with
  | nil => rfl
  | cons entry entries ih => rw [ofList, texts, ih, List.map_cons]

theorem ofList_injective : Function.Injective ofList := by
  intro entries
  induction entries with
  | nil =>
    rintro (_ | ⟨other, others⟩) h
    · rfl
    · cases h
  | cons entry entries ih =>
    rintro (_ | ⟨other, others⟩) h
    · cases h
    · injection h with hname hvalue hrest
      rw [Prod.ext hname hvalue, ih hrest]

end Text.Json.Members

/-- A memory word as a JSON value. -/
def Word.tree : Word → Text.Json.Value
  | .text s => .string s
  | .number n => .number n

theorem Word.tree_injective : Function.Injective Word.tree := by
  rintro (s | n) (t | k) h
  · rw [Text.Json.Value.string.inj h]
  · cases h
  · cases h
  · rw [Text.Json.Value.number.inj h]

namespace Snapshot

open Text
open Numeral (decimal fits)

/-- The member of a memory cell. -/
def cellTree (cell : Int × Word) : String × Json.Value := (decimal cell.1, cell.2.tree)

/-- The member of a name. -/
def symbolTree (entry : String × Int) : String × Json.Value := (entry.1, .number entry.2)

/-- The JSON value of a snapshot. -/
def tree (s : Snapshot) : Json.Value :=
  .object <| .ofList [
    ("state", .string s.state),
    ("registers", .object <| .ofList [
      ("accumulator", .number s.accumulator),
      ("data_register", .number s.data),
      ("program_counter", .number s.programCounter)]),
    ("flags", .object <| .ofList [
      ("zero", .truth s.zero),
      ("overflow", .truth s.overflow)]),
    ("instructions_executed", .number s.executed),
    ("memory", .object <| .ofList (s.memory.toList.map cellTree)),
    ("symbols", .object <| .ofList (s.symbols.toList.map symbolTree))]

/-! ### The dump is the text of the value -/

theorem gives_wordJson (w : Word) (depth : Nat) :
    Gives (wordJson w) (∀ n ∈ w.numerals, fits n) (w.tree.text depth) := by
  cases w with
  | text s => exact (Gives.pure _).congr (by simp [Word.numerals])
  | number n => exact (Numeral.gives_write n).congr (by simp [Word.numerals])

theorem gives_cellMember (cell : Int × Word) :
    Gives (cellMember cell) (∀ n ∈ cell.1 :: cell.2.numerals, fits n)
      (Json.member (cellTree cell).1 ((cellTree cell).2.text 2)) :=
  ((Numeral.gives_write cell.1).bind (gives_wordJson cell.2 2).map).congr
    (by rw [List.forall_mem_cons])

theorem gives_symbolMember (entry : String × Int) :
    Gives (symbolMember entry) (fits entry.2)
      (Json.member (symbolTree entry).1 ((symbolTree entry).2.text 2)) :=
  (Numeral.gives_write entry.2).map

/-- **The JSON dump is the text of the snapshot's value**, and it is written exactly if no integer
in it is too long. -/
theorem gives_json (s : Snapshot) :
    Gives s.json (∀ n ∈ s.executed :: s.numerals, fits n) (s.tree.text 0) := by
  have hmemory := Gives.mapM gives_cellMember s.memory.toList
  have hsymbols := Gives.mapM gives_symbolMember s.symbols.toList
  have hdump : Gives s.json (fits s.accumulator ∧ fits s.data ∧ fits s.programCounter ∧
      fits s.executed ∧ (∀ cell ∈ s.memory.toList, ∀ n ∈ cell.1 :: cell.2.numerals, fits n) ∧
      ∀ entry ∈ s.symbols.toList, fits entry.2) (s.tree.text 0) := by
    unfold json
    refine (Numeral.gives_write _).bind ?_
    refine (Numeral.gives_write _).bind ?_
    refine (Numeral.gives_write _).bind ?_
    refine (Numeral.gives_write _).bind ?_
    refine hmemory.bind ?_
    simp only [tree, Json.Value.text, Json.Members.texts_ofList, List.map_cons, List.map_nil,
      List.map_map]
    exact hsymbols.map
  refine hdump.congr ?_
  rw [List.forall_mem_cons, forall_mem_numerals_iff]
  constructor
  · rintro ⟨haccumulator, hdata, hcounter, hexecuted, hcells, hnames⟩
    exact ⟨hexecuted, haccumulator, hdata, hcounter, hcells, hnames⟩
  · rintro ⟨hexecuted, haccumulator, hdata, hcounter, hcells, hnames⟩
    exact ⟨haccumulator, hdata, hcounter, hexecuted, hcells, hnames⟩

/-! ### The value determines the snapshot -/

theorem cellTree_injective : Function.Injective cellTree := by
  rintro ⟨address, word⟩ ⟨other, word'⟩ h
  obtain ⟨haddress, hword⟩ := Prod.mk.inj h
  exact Prod.ext (Numeral.decimal_injective haddress) (Word.tree_injective hword)

theorem symbolTree_injective : Function.Injective symbolTree := by
  rintro ⟨name, address⟩ ⟨other, address'⟩ h
  obtain ⟨hname, haddress⟩ := Prod.mk.inj h
  exact Prod.ext hname (Json.Value.number.inj haddress)

theorem tree_injective : Function.Injective tree := by
  intro s t h
  simp only [tree, Json.Value.object.injEq, Json.Members.ofList_injective.eq_iff,
    List.cons.injEq, Prod.mk.injEq, Json.Value.string.injEq, Json.Value.number.injEq,
    Json.Value.truth.injEq, true_and, and_true] at h
  obtain ⟨hstate, ⟨haccumulator, hdata, hcounter⟩, ⟨hzero, hoverflow⟩, hexecuted, hmemory,
    hsymbols⟩ := h
  have hcells := OrderedMap.ext (List.map_injective_iff.2 cellTree_injective hmemory)
  have hnames := OrderedMap.ext (List.map_injective_iff.2 symbolTree_injective hsymbols)
  cases s
  cases t
  simp_all

/-- **The JSON dump loses nothing**: two snapshots with the same dump are the same, in state,
registers, flags, number of instructions, and in memory and symbol table with their order. -/
theorem json_injective {s t : Snapshot} {dump : String} (hs : s.json = .ok dump)
    (ht : t.json = .ok dump) : s = t := by
  obtain ⟨-, hs⟩ := (gives_json s dump).1 hs
  obtain ⟨-, ht⟩ := (gives_json t dump).1 ht
  exact tree_injective (Json.Value.text_injective (hs.symm.trans ht))

/-- A snapshot with a text and an integer of the same digit, a text that looks like the end of one
member and the beginning of another, and a name that looks like a member. -/
def awkward : Snapshot where
  accumulator := -5
  data := 0
  programCounter := 3
  zero := false
  overflow := true
  memory := .ofList [(0, .text "5"), (1, .number 5), (2, .text "\",\n    \"3\": \"\\\x01")]
  symbols := .ofList [("x\": 1", 100)]

/-- The dump of `awkward`. -/
def awkwardDump : String :=
  "\x7b\n  \"state\": \"READY\",\n  \"registers\": \x7b\n    \"accumulator\": -5,\n" ++
  "    \"data_register\": 0,\n    \"program_counter\": 3\n  \x7d,\n" ++
  "  \"flags\": \x7b\n    \"zero\": false,\n    \"overflow\": true\n  \x7d,\n" ++
  "  \"instructions_executed\": 0,\n  \"memory\": \x7b\n    \"0\": \"5\",\n    \"1\": 5,\n" ++
  "    \"2\": \"\\\",\\n    \\\"3\\\": \\\"\\\\\\u0001\"\n  \x7d,\n" ++
  "  \"symbols\": \x7b\n    \"x\\\": 1\": 100\n  \x7d\n\x7d"

/-- Memory filled in another way, with the same cells in the same order. -/
theorem json_injective_awkward :
    let rebuilt := { awkward with
      memory := (OrderedMap.ofList [(0, .number 5), (1, .number 5)]).insert 0 (.text "5")
        |>.insert 2 (.text "\",\n    \"3\": \"\\\x01") }
    awkward.json = .ok awkwardDump ∧ rebuilt.json = .ok awkwardDump ∧ awkward = rebuilt := by
  have hdump : awkward.json = .ok awkwardDump := (gives_json _ _).2 (by decide +kernel)
  exact ⟨hdump, hdump, json_injective hdump ((gives_json _ _).2 (by decide +kernel))⟩

end Snapshot

end Accumulator
