import Accumulator.Proofs.Programmed
import Accumulator.Proofs.Readable
import Accumulator.Proofs.Rows
import Accumulator.Proofs.Writing
import Accumulator.Snapshot.Text

/-!
# What the text dump tells

The text dump of a snapshot is a stack of rows (`Snapshot.gives_text`), and nothing in it is quoted.
It can be taken apart all the same if the words of memory take one row each and names are names
(`Snapshot.Lined`).  A row is then a row of the snapshot.  The rows of memory begin in a way that
the heading behind them does not.  And in a row the address ends before a colon, as a name does
(`Snapshot.Lined.showsSame`).

`Machine.OfLines` are the machines that were loaded with lines of text and had nothing changed by
hand since.  What is in their memory is a line of the program or a decimal text, and their names
were decoded, so that their snapshots are of that kind (`Machine.OfLines.lined`).
-/

namespace Accumulator

namespace Snapshot

open Text
open Numeral (decimal fits)

/-! ### The rows of a dump -/

/-- The row of a memory cell. -/
def cellRow (cell : Int × Word) : String := "Address " ++ decimal cell.1 ++ ": " ++ cell.2.plain

/-- The row of a name. -/
def symbolRow (entry : String × Int) : String := entry.1 ++ ": " ++ decimal entry.2

/-- The rows of registers and flags. -/
def registerRows (s : Snapshot) : List String := [
  "Registers and Flags:",
  "Accumulator: " ++ decimal s.accumulator,
  "Data Register: " ++ decimal s.data,
  "Program Counter: " ++ decimal s.programCounter,
  "Zero Bit: " ++ Json.truth s.zero,
  "Overflow Bit: " ++ Json.truth s.overflow]

/-- The rows of memory. -/
def memoryRows (s : Snapshot) : List String := "Memory:" :: s.memory.toList.map cellRow

/-- The rows of the symbol table. -/
def symbolRows (s : Snapshot) : List String :=
  "Symbols Table(Symbol:Address):" :: s.symbols.toList.map symbolRow

/-- The rows of the text dump. -/
def rows (s : Snapshot) : List String :=
  s.registerRows ++ (s.memoryRows ++ s.symbolRows)

theorem gives_cellLine (cell : Int × Word) :
    Gives (cellLine cell) (∀ n ∈ cell.1 :: cell.2.numerals, fits n) (cellRow cell) :=
  ((Numeral.gives_write cell.1).bind cell.2.gives_write.map).congr (by rw [List.forall_mem_cons])

theorem gives_symbolLine (entry : String × Int) :
    Gives (symbolLine entry) (fits entry.2) (symbolRow entry) :=
  (Numeral.gives_write entry.2).map

theorem gives_registersText (s : Snapshot) :
    Gives s.registersText (fits s.accumulator ∧ fits s.data ∧ fits s.programCounter)
      (stack s.registerRows) := by
  unfold registersText
  refine (Numeral.gives_write _).bind ?_
  refine (Numeral.gives_write _).bind ?_
  exact (Numeral.gives_write _).map

theorem gives_memoryText (s : Snapshot) :
    Gives s.memoryText (∀ cell ∈ s.memory.toList, ∀ n ∈ cell.1 :: cell.2.numerals, fits n)
      (stack s.memoryRows) :=
  (Gives.mapM gives_cellLine s.memory.toList).map

theorem gives_symbolsText (s : Snapshot) :
    Gives s.symbolsText (∀ entry ∈ s.symbols.toList, fits entry.2) (stack s.symbolRows) :=
  (Gives.mapM gives_symbolLine s.symbols.toList).map

/-- **The text dump is the stack of the snapshot's rows**, and it is written exactly if no integer
in it is too long. -/
theorem gives_text (s : Snapshot) : Gives s.text (∀ n ∈ s.numerals, fits n) (stack s.rows) := by
  have hregisters : s.registerRows ≠ [] := List.cons_ne_nil _ _
  have hmemory : s.memoryRows ≠ [] := List.cons_ne_nil _ _
  have hsymbols : s.symbolRows ≠ [] := List.cons_ne_nil _ _
  have hrows : stack s.rows =
      stack [stack s.registerRows, stack s.memoryRows, stack s.symbolRows] := by
    rw [rows, stack_append hregisters (by simp [hmemory]), stack_append hmemory hsymbols,
      stack_cons (by simp), stack_cons (by simp)]
    rfl
  rw [hrows]
  unfold text
  refine Gives.congr ((gives_registersText s).bind ((gives_memoryText s).bind
    (gives_symbolsText s).map)) ?_
  rw [forall_mem_numerals_iff, and_assoc, and_assoc]

/-! ### Unique readability -/

/-- The words of memory take one row each, and the names are names. -/
structure Lined (s : Snapshot) : Prop where
  memory : ∀ cell ∈ s.memory.toList, cell.2.IsRow
  symbols : ∀ entry ∈ s.symbols.toList, isName entry.1

/-- What a text dump shows is the same in both snapshots. -/
structure ShowsSame (s t : Snapshot) : Prop where
  accumulator : s.accumulator = t.accumulator
  data : s.data = t.data
  programCounter : s.programCounter = t.programCounter
  zero : s.zero = t.zero
  overflow : s.overflow = t.overflow
  memory : s.memory = t.memory
  symbols : s.symbols = t.symbols

variable {s t : Snapshot}

theorem toList_cellRow (cell : Int × Word) :
    (cellRow cell).toList = "Address ".toList ++
      ((decimal cell.1).toList ++ ':' :: ' ' :: cell.2.plain.toList) := by
  simp [cellRow, String.toList_append]

theorem toList_symbolRow (entry : String × Int) :
    (symbolRow entry).toList = entry.1.toList ++ ':' :: ' ' :: (decimal entry.2).toList := by
  simp [symbolRow, String.toList_append]

/-- No row of a dump holds a line feed. -/
theorem Lined.newline_not_mem (hs : s.Lined) : ∀ row ∈ s.rows, '\n' ∉ row.toList := by
  intro row hrow
  rw [rows, List.mem_append, List.mem_append] at hrow
  rcases hrow with hrow | hrow | hrow
  · have hdecimal := Numeral.newline_not_mem_decimal
    have htruth : ∀ b, '\n' ∉ (Json.truth b).toList := by decide
    simp only [registerRows, List.mem_cons, List.not_mem_nil, or_false] at hrow
    -- six labels, each in front of a numeral or a truth value
    rcases hrow with rfl | rfl | rfl | rfl | rfl | rfl <;>
      simp [String.toList_append, hdecimal, htruth]
  · rcases List.mem_cons.1 hrow with rfl | hrow
    · decide
    · obtain ⟨cell, hcell, rfl⟩ := List.mem_map.1 hrow
      obtain ⟨text, htext, hnewline⟩ := hs.memory cell hcell
      rw [toList_cellRow, htext]
      simp [Word.plain, hnewline, Numeral.newline_not_mem_decimal]
  · rcases List.mem_cons.1 hrow with rfl | hrow
    · decide
    · obtain ⟨entry, hentry, rfl⟩ := List.mem_map.1 hrow
      have hname := newline_not_mem_of_blank (isName_toList (hs.symbols entry hentry)).2
      rw [toList_symbolRow]
      simp [hname, Numeral.newline_not_mem_decimal]

/-- The row of a cell that holds a text determines the cell. -/
theorem cellRow_inj {cell other : Int × Word} (hcell : cell.2.IsRow) (hother : other.2.IsRow)
    (h : cellRow cell = cellRow other) : cell = other := by
  obtain ⟨address, word⟩ := cell
  obtain ⟨address', word'⟩ := other
  obtain ⟨text, rfl, -⟩ := hcell
  obtain ⟨text', rfl, -⟩ := hother
  have hrow := congrArg String.toList h
  rw [toList_cellRow, toList_cellRow] at hrow
  obtain ⟨rfl, hbehind⟩ := Numeral.decimal_append_inj (by simp [Numeral.isDecimal])
    (by simp [Numeral.isDecimal]) (List.append_cancel_left hrow)
  obtain rfl := String.toList_inj.1 (List.cons.inj (List.cons.inj hbehind).2).2
  rfl

/-- The row of a name determines the name and its address. -/
theorem symbolRow_inj {entry other : String × Int} (hentry : isName entry.1)
    (hother : isName other.1) (h : symbolRow entry = symbolRow other) : entry = other := by
  have hrow := congrArg String.toList h
  rw [toList_symbolRow, toList_symbolRow] at hrow
  have hcolon : isNameRest ':' = false := by decide
  obtain ⟨hname, hbehind⟩ := append_inj_of_class (isNameRest_of_mem hentry)
    (isNameRest_of_mem hother) (by simpa using hcolon) (by simpa using hcolon) hrow
  have haddress := String.toList_inj.1 (List.cons.inj (List.cons.inj hbehind).2).2
  exact Prod.ext (String.toList_inj.1 hname) (Numeral.decimal_injective haddress)

/-- Whether a row begins as those of memory cells do. -/
def isCellRow (row : String) : Bool := "Address ".toList.isPrefixOf row.toList

theorem isCellRow_cellRow (cell : Int × Word) : isCellRow (cellRow cell) := by
  rw [isCellRow, toList_cellRow, List.isPrefixOf_iff_prefix]
  exact List.prefix_append _ _

theorem not_isCellRow_heading (s : Snapshot) :
    ∀ row ∈ s.symbolRows.head?, isCellRow row = false := by
  intro row hrow
  obtain rfl := Option.mem_some.1 hrow
  decide

/-- A function that tells the members of two lists apart tells the lists apart. -/
theorem eq_of_map_eq {α β : Type} {f : α → β} {l k : List α}
    (hinj : ∀ a ∈ l, ∀ b ∈ k, f a = f b → a = b) (h : l.map f = k.map f) : l = k := by
  induction l generalizing k with
  | nil => exact (List.map_eq_nil_iff.1 h.symm).symm
  | cons a l ih =>
    cases k with
    | nil => cases h
    | cons b k =>
      obtain ⟨hhead, htail⟩ := List.cons.inj h
      have hrest : l = k := ih (fun a ha b hb =>
        hinj a (List.mem_cons_of_mem _ ha) b (List.mem_cons_of_mem _ hb)) htail
      rw [hinj a (List.mem_cons_self ..) b (List.mem_cons_self ..) hhead, hrest]

theorem truth_inj {a b : Bool} (h : Json.truth a = Json.truth b) : a = b := by
  revert a b
  decide

/-- The rows of registers and flags determine them. -/
theorem registerRows_inj (h : s.registerRows = t.registerRows) :
    s.accumulator = t.accumulator ∧ s.data = t.data ∧ s.programCounter = t.programCounter ∧
      s.zero = t.zero ∧ s.overflow = t.overflow := by
  simp only [registerRows, List.cons.injEq, String.append_right_inj, and_true, true_and] at h
  obtain ⟨haccumulator, hdata, hcounter, hzero, hoverflow⟩ := h
  exact ⟨Numeral.decimal_injective haccumulator, Numeral.decimal_injective hdata,
    Numeral.decimal_injective hcounter, truth_inj hzero, truth_inj hoverflow⟩

/-- **The rows tell everything that is shown.** -/
theorem Lined.showsSame (hs : s.Lined) (ht : t.Lined) (h : s.rows = t.rows) : s.ShowsSame t := by
  obtain ⟨hregisters, hbehind⟩ := List.append_inj h rfl
  -- the heading of the symbol table is the first row after that of memory which begins otherwise
  obtain ⟨hcells, hsymbols⟩ := append_inj_of_class (p := isCellRow)
    (List.forall_mem_map.2 fun cell _ => isCellRow_cellRow cell)
    (List.forall_mem_map.2 fun cell _ => isCellRow_cellRow cell)
    s.not_isCellRow_heading t.not_isCellRow_heading (List.cons.inj hbehind).2
  obtain ⟨haccumulator, hdata, hcounter, hzero, hoverflow⟩ := registerRows_inj hregisters
  refine ⟨haccumulator, hdata, hcounter, hzero, hoverflow, OrderedMap.ext ?_, OrderedMap.ext ?_⟩
  · exact eq_of_map_eq (fun _ hcell _ hother => cellRow_inj (hs.memory _ hcell)
      (ht.memory _ hother)) hcells
  · exact eq_of_map_eq (fun _ hentry _ hother => symbolRow_inj (hs.symbols _ hentry)
      (ht.symbols _ hother)) (List.cons.inj hsymbols).2

end Snapshot

/-! ### The cells and names of machines -/

namespace Core

variable {c d : Core} {program : List Word}

/-- Every cell that has been written to holds a row if the program consists of rows. -/
theorem Layout.isRow {size : Int} (hc : c.Layout program size)
    (hprogram : ∀ word ∈ program, word.IsRow) {cell : Int × Word}
    (h : cell ∈ c.memory.used.toList) : cell.2.IsRow := by
  obtain ⟨hread, hwritten⟩ := Memory.mem_used_iff.1 h
  rcases hc.cells _ _ hread with hloaded | ⟨-, -, n, hdecimal⟩
  · cases hword : program[cell.1.toNat]? with
    | none =>
      -- behind the program only data cells have been written to
      rw [loadedWord, hword] at hloaded
      exact absurd (by rw [hloaded]; rfl) hwritten
    | some word =>
      rw [loadedWord, hword] at hloaded
      rw [hloaded]
      exact hprogram word (List.mem_of_getElem? hword)
  · rw [hread] at hdecimal
    rw [Except.ok.inj hdecimal]
    exact ⟨_, rfl, Numeral.newline_not_mem_decimal n⟩

/-- Names are declared by instructions that were decoded, so that they are names. -/
theorem isName_execute (hc : ∀ name ∈ c.symbols.bindings.keys, isName name) {i : Instruction}
    (hfetch : c.fetch = .ok i) (h : c.execute i = .ok d) :
    ∀ name ∈ d.symbols.bindings.keys, isName name := by
  -- a declaration is the only instruction that binds a name
  cases coreEffect h with
  | @declared declared symbols hdeclare =>
    obtain ⟨-, rfl⟩ := SymbolTable.declare_eq_ok_iff.1 hdeclare
    obtain ⟨word, -, hdecode⟩ := bind_eq_ok hfetch
    have hdeclared : isName declared := Instruction.wellFormed_of_decode hdecode _ rfl
    intro name hname
    have hkeys := c.symbols.bindings.keys_insert declared c.symbols.next
    change name ∈ (c.symbols.bindings.insert declared c.symbols.next).keys at hname
    rw [hkeys] at hname
    split at hname
    · exact hc name hname
    · rcases List.mem_append.1 hname with hname | hname
      · exact hc name hname
      · rw [List.mem_singleton.1 hname]
        exact hdeclared
  | loaded => exact hc
  | stored => exact hc
  | internal => exact hc

end Core

namespace Machine

variable {m n : Machine}

/-- A machine that is left to a program of rows, in which names are names. -/
structure Lined (m : Machine) : Prop where
  orderly : m.Orderly
  program : ∀ word ∈ m.program, word.IsRow
  names : ∀ name ∈ m.symbols.bindings.keys, isName name

theorem Lined.snapshot (hm : m.Lined) : m.snapshot.Lined where
  memory _ hcell := hm.orderly.core.layout.isRow hm.program hcell
  symbols _ hentry := hm.names _ (List.mem_map_of_mem hentry)

theorem lined_load (hm : m.Fitted) {program : List Word} (hprogram : ∀ word ∈ program, word.IsRow)
    (h : (m.load program).answer = .ok ()) : (m.load program).machine.Lined := by
  have horderly := orderly_load hm h
  obtain ⟨memory, -, hmachine⟩ := of_load h
  rw [hmachine] at horderly ⊢
  exact ⟨horderly, hprogram, fun name hname => by cases hname⟩

theorem Lined.step (hm : m.Lined) : m.step.machine.Lined := by
  refine ⟨hm.orderly.step, ?_, ?_⟩
  · rw [m.settings_step.2.1]
    exact hm.program
  · rcases m.toCore_step with h | ⟨i, hfetch, h⟩
    · rw [h]
      exact hm.names
    · exact Core.isName_execute hm.names hfetch h

theorem Lined.perform (hm : m.Lined) (request : Execution) : (m.perform request).machine.Lined :=
  perform_induction (fun _ h => h.step)
    (fun _ h hready => ⟨h.orderly.stop hready, h.program, h.names⟩) hm request

theorem Lined.reset (hm : m.Lined) : m.reset.machine.Lined := by
  rcases hm.orderly.reset_cases with ⟨hroom, -⟩ | ⟨-, -, hmachine⟩
  · have hload := answer_load (hm.orderly.room hroom)
    rw [reset_eq_load hload]
    exact lined_load hm.orderly.core.fitted hm.program hload
  · rw [hmachine]
    exact hm

/-- The machines that were loaded with lines of text which hold no line feed, and that were told
nothing since but to execute them, to begin again and to trace what they do. -/
inductive OfLines : Machine → Prop
  | load {m : Machine} (h : Reachable m) {program : List Word}
      (rows : ∀ word ∈ program, word.IsRow) (accepted : (m.load program).answer = .ok ()) :
      OfLines (m.load program).machine
  | reset {m : Machine} (h : OfLines m) : OfLines m.reset.machine
  | perform {m : Machine} (h : OfLines m) (request : Execution) :
      OfLines (m.perform request).machine
  | setTracing {m : Machine} (h : OfLines m) (on : Bool) : OfLines (m.setTracing on)
  | clearTrace {m : Machine} (h : OfLines m) : OfLines m.clearTrace

theorem OfLines.lined (h : OfLines m) : m.Lined := by
  induction h with
  | load hm hrows haccepted => exact lined_load hm.fitted hrows haccepted
  | reset _ ih => exact ih.reset
  | perform _ request ih => exact ih.perform request
  | @setTracing m _ on ih =>
    have horderly := ih.orderly
    exact ⟨⟨horderly.core, horderly.room, horderly.faulted, horderly.unfaulted⟩, ih.program,
      ih.names⟩
  | clearTrace _ ih =>
    have horderly := ih.orderly
    exact ⟨⟨horderly.core, horderly.room, horderly.faulted, horderly.unfaulted⟩, ih.program,
      ih.names⟩

theorem OfLines.showsSame (hm : OfLines m) (hn : OfLines n) {dump : String}
    (h : m.snapshot.text = .ok dump) (hother : n.snapshot.text = .ok dump) :
    m.snapshot.ShowsSame n.snapshot := by
  have hms := hm.lined.snapshot
  have hns := hn.lined.snapshot
  obtain ⟨-, htext⟩ := (m.snapshot.gives_text dump).1 h
  obtain ⟨-, hother⟩ := (n.snapshot.gives_text dump).1 hother
  exact hms.showsSame hns (Text.stack_inj (List.cons_ne_nil _ _) (List.cons_ne_nil _ _)
    hms.newline_not_mem hns.newline_not_mem (htext.symm.trans hother))

/-- **The text dump determines what it shows**: registers and flags, and the whole of memory and
symbol table with their order, also where lines of the program look like rows of the dump.  The
machines may come from any history; what matters is that they were loaded with rows, as the lines of
a program file are, and that nothing was changed by hand since. -/
theorem text_determines_shown :
    (∀ name opened lines event, Program.read name opened = .ok (lines, event) →
      ∀ line ∈ lines, (Word.text line).IsRow) ∧
    ∀ m n dump, OfLines m → OfLines n → m.snapshot.text = .ok dump →
      n.snapshot.text = .ok dump → m.snapshot.ShowsSame n.snapshot :=
  ⟨fun _ _ _ _ h => Program.isRow_of_read h, fun _ _ _ hm hn h hother => hm.showsSame hn h hother⟩

/-- A program text with lines that look like rows of a dump. -/
def deceptiveText : List Char :=
  "DEC Address\n Address 3: HLT\r\nSymbols Table(Symbol:Address):\nAddress: 128\n".toList

/-- The bytes of `deceptiveText`. -/
def deceptiveFile : List UInt8 := deceptiveText.map fun c => c.toNat.toUInt8

/-- The lines of `deceptiveText`. -/
def deceptiveLines : List String :=
  ["DEC Address", "Address 3: HLT", "Symbols Table(Symbol:Address):", "Address: 128"]

/-- What a dump shows when the first of `deceptiveLines` has been executed. -/
def deceptiveSnapshot (state : State) : Snapshot where
  accumulator := 0
  data := 0
  programCounter := 1
  zero := false
  overflow := false
  memory := .ofList [(0, .text "DEC Address"), (1, .text "Address 3: HLT"),
    (2, .text "Symbols Table(Symbol:Address):"), (3, .text "Address: 128")]
  symbols := .ofList [("Address", 128)]
  state := state.name
  executed := 1

/-- The dump of `deceptiveSnapshot`. -/
def deceptiveDump : String :=
  "Registers and Flags:\nAccumulator: 0\nData Register: 0\nProgram Counter: 1\n" ++
  "Zero Bit: false\nOverflow Bit: false\nMemory:\nAddress 0: DEC Address\n" ++
  "Address 1: Address 3: HLT\nAddress 2: Symbols Table(Symbol:Address):\n" ++
  "Address 3: Address: 128\nSymbols Table(Symbol:Address):\nAddress: 128"

/-- A machine at the second line, and one that held another program before and has failed at the
second line: whether a machine has failed is nothing that the dump shows. -/
theorem text_determines_shown_deceptive :
    let program := deceptiveLines.map Word.text
    let loaded := ((blank 1 Nat.one_pos 129).load program).machine
    let reloaded := (((blank 2 Nat.two_pos 130).load [.text "HLT"]).machine.load program).machine
    let m := loaded.step.machine
    let n := reloaded.step.machine.step.machine
    Program.read "look" (.ok deceptiveFile) = .ok (deceptiveLines, .programRead 4 "look") ∧
      OfLines m ∧ OfLines n ∧ m.snapshot.text = .ok deceptiveDump ∧
      n.snapshot.text = .ok deceptiveDump ∧ m.snapshot.state ≠ n.snapshot.state ∧
      m.snapshot.ShowsSame n.snapshot := by
  intro program loaded reloaded m n
  have hdecode : Text.Utf8.decode deceptiveFile = .ok deceptiveText := by decide +kernel
  have hlines : Program.linesOf deceptiveText = deceptiveLines := by decide +kernel
  have hpath : (Path.ofString "look").text = "look" := by decide +kernel
  have hread : Program.read "look" (.ok deceptiveFile) =
      .ok (deceptiveLines, .programRead 4 "look") := by
    dsimp only [Program.read, Program.ofBytes]
    rw [hdecode, hpath]
    dsimp only
    rw [hlines]
    rfl
  have hrows : ∀ word ∈ program, word.IsRow :=
    List.forall_mem_map.2 (text_determines_shown.1 _ _ _ _ hread)
  have hfirst : Machine.new 1 129 = .ok (blank 1 Nat.one_pos 129) := rfl
  have hsecond : Machine.new 2 130 = .ok (blank 2 Nat.two_pos 130) := rfl
  have hloaded : OfLines loaded := .load (.new hfirst) hrows (answer_load (by decide))
  have hreloaded : OfLines reloaded :=
    .load (.load (.new hsecond) [.text "HLT"]) hrows (answer_load (by decide +kernel))
  have hm : OfLines m := hloaded.perform .step
  have hn : OfLines n := (hreloaded.perform .step).perform .step
  have hready : m.snapshot = deceptiveSnapshot .ready := by decide +kernel
  have hfaulted : n.snapshot = deceptiveSnapshot .faulted := by decide +kernel
  have hdump : m.snapshot.text = .ok deceptiveDump := by
    rw [hready]
    exact ((deceptiveSnapshot .ready).gives_text _).2 (by decide +kernel)
  have hother : n.snapshot.text = .ok deceptiveDump := by
    rw [hfaulted]
    exact ((deceptiveSnapshot .faulted).gives_text _).2 (by decide +kernel)
  have hstate : m.snapshot.state ≠ n.snapshot.state := by
    rw [hready, hfaulted]
    decide
  exact ⟨hread, hm, hn, hdump, hother, hstate,
    text_determines_shown.2 m n _ hm hn hdump hother⟩

end Machine

end Accumulator
