import Accumulator.Proofs.Lines
import Accumulator.Proofs.Rows
import Accumulator.Proofs.Utf8

/-!
# Reading program files

A program file is read exactly if its bytes are UTF-8 (`read_eq_ok_iff`).  What is read has an entry
for each line of the file, so that an entry has the number of its line, exactly if no character but
the last one is a foreign line end (`entries_are_lines_iff`).

An entry neither begins nor ends with a blank and holds no line end (`IsEntry`).  A file with such
lines, closed by terminators of one sort, is read as these lines (`files_round_trip`).
-/

namespace Accumulator.Program

open Text

variable {name : String} {bytes : List UInt8} {entries : List String} {event : Event}

/-- **A file is read exactly if its bytes are those of a text**, and then as the lines of the
text. -/
theorem read_eq_ok_iff : read name (.ok bytes) = .ok (entries, event) ↔
    ∃ s : String, bytes = Utf8.encode s ∧ entries = linesOf s.toList ∧
      event = .programRead entries.length (Path.ofString name).text := by
  constructor
  · intro h
    dsimp only [read, ofBytes] at h
    cases hdecode : Utf8.decode bytes with
    | error error =>
      rw [hdecode] at h
      cases h
    | ok text =>
      rw [hdecode] at h
      cases h
      exact ⟨.ofList text, Utf8.decode_eq_ok_iff.1 hdecode, by rw [String.toList_ofList], rfl⟩
  · rintro ⟨s, rfl, rfl, rfl⟩
    dsimp only [read, ofBytes]
    rw [Utf8.decode_encode]

/-! ### The lines of a file -/

/-- **The entry of a number is the line of this number unless there is a foreign line end.**  A file
holds the bytes of a text, which consists of lines in exactly one way.  It is read, and there are as
many entries more than lines as there are foreign line ends before the last character of the text.
The entries are the stripped lines, one for each, exactly if there is none. -/
theorem entries_are_lines_iff (name : String) (s : String) :
    ∃ lines entries event,
      (Delimited s.toList lines ∧ ∀ others, Delimited s.toList others → others = lines) ∧
      read name (.ok (Utf8.encode s)) = .ok (entries, event) ∧
      entries.length = lines.length + s.toList.dropLast.countP isForeign ∧
      (entries = lines.map (strip ∘ String.ofList) ↔
        ∀ c ∈ s.toList.dropLast, isLineEnd c → c = '\n' ∨ c = '\r') := by
  obtain ⟨lines, hlines⟩ := exists_delimited s.toList
  have hlength := length_linesOf hlines
  refine ⟨lines, _, _, ⟨hlines, fun others hothers => hlines.unique hothers⟩,
    read_eq_ok_iff.2 ⟨s, rfl, rfl, rfl⟩, hlength, ?_⟩
  have hforeign : (∀ c ∈ s.toList.dropLast, isLineEnd c → c = '\n' ∨ c = '\r') ↔
      ∀ c ∈ s.toList.dropLast, isForeign c = false := by
    simp [isForeign, isNewline, or_iff_not_imp_left]
  rw [hforeign]
  refine ⟨fun heq => ?_, linesOf_eq hlines⟩
  -- a foreign line end would make an entry too many
  have hnone : s.toList.dropLast.countP isForeign = 0 := by
    rw [heq, List.length_map] at hlength
    omega
  intro c hc
  simpa using List.countP_eq_zero.1 hnone c hc

/-- A program with a form feed in its first line. -/
def feeding : String := "DEC A\x0cHLT\nHLT\n"

theorem delimited_feeding :
    Delimited feeding.toList ["DEC A\x0cHLT".toList, "HLT".toList] := by
  have hcloses : ['\n'] ∈ terminators := by decide
  have hsolid : ∀ line ∈ ["DEC A\x0cHLT", "HLT"], ∀ c ∈ line.toList, isNewline c = false := by
    simp [isNewline]
  have hfirst := hsolid "DEC A\x0cHLT" (List.mem_cons_self ..)
  have hlast := hsolid "HLT" (List.mem_cons_of_mem _ (List.mem_cons_self ..))
  exact .closed hfirst hcloses (by simp) (.closed hlast hcloses (by simp) .empty)

/-- A form feed within a line puts the lines behind it out of place. -/
theorem not_always_line_by_line : ¬ ∀ (name s : String) (lines : List (List Char)),
    Delimited s.toList lines → ∃ event,
      read name (.ok (Utf8.encode s)) = .ok (lines.map (strip ∘ String.ofList), event) := by
  intro h
  obtain ⟨event, hread⟩ := h "program" feeding _ delimited_feeding
  have hfeeding : read "program" (.ok (Utf8.encode feeding)) = .ok (linesOf feeding.toList, _) :=
    read_eq_ok_iff.2 ⟨feeding, rfl, rfl, rfl⟩
  rw [hfeeding] at hread
  have hlength : (linesOf feeding.toList).length = 2 := by
    rw [(Prod.mk.inj (Except.ok.inj hread)).1]
    rfl
  -- the form feed makes a third line
  rw [length_linesOf delimited_feeding] at hlength
  revert hlength
  decide

/-! ### Writing and reading -/

/-- A text as it stands in a program: no blank at either end, no line end within. -/
structure IsEntry (line : String) : Prop where
  first : ∀ c ∈ line.toList.head?, isBlank c = false
  last : ∀ c ∈ line.toList.getLast?, isBlank c = false
  solid : ∀ c ∈ line.toList, isLineEnd c = false

/-- The bytes of a file with these lines, each closed by the terminator. -/
def fileOf (terminator : List Char) (lines : List String) : List UInt8 :=
  Utf8.encode (String.ofList (lines.flatMap fun line => line.toList ++ terminator))

theorem IsEntry.strip {line : String} (h : IsEntry line) : strip line = line :=
  strip_eq_self_iff.2 ⟨h.first, h.last⟩

theorem IsEntry.isNewline {line : String} (h : IsEntry line) :
    ∀ c ∈ line.toList, isNewline c = false := by
  intro c hc
  by_contra hnewline
  have hend := isLineEnd_of_isNewline (eq_true_of_ne_false hnewline)
  rw [h.solid c hc] at hend
  cases hend

theorem isEntry_strip {line : String} (h : ∀ c ∈ line.toList, isLineEnd c = false) :
    IsEntry (Text.strip line) := by
  obtain ⟨hfirst, hlast⟩ := strip_eq_self_iff.1 (strip_strip line)
  exact ⟨hfirst, hlast, fun c hc => h c (mem_of_mem_strip hc)⟩

theorem isNewline_of_mem_terminator {terminator : List Char} (h : terminator ∈ terminators) :
    ∀ c ∈ terminator, Text.isNewline c = true := by
  have hall : (terminators.all fun terminator => terminator.all Text.isNewline) = true := by decide
  exact List.all_eq_true.1 (List.all_eq_true.1 hall terminator h)

/-- Lines with terminators behind them are the lines of the text that they make. -/
theorem delimited_flatMap {terminator : List Char} (hterminator : terminator ∈ terminators)
    {lines : List String} (h : ∀ line ∈ lines, IsEntry line) :
    Delimited (lines.flatMap fun line => line.toList ++ terminator)
      (lines.map String.toList) := by
  induction lines with
  | nil => exact .empty
  | cons line lines ih =>
    obtain ⟨hline, hlines⟩ := List.forall_mem_cons.1 h
    rw [List.flatMap_cons, List.append_assoc]
    refine .closed hline.isNewline hterminator ?_ (ih hlines)
    -- neither a line nor a carriage return begins with a line feed
    rintro rfl hhead
    cases lines with
    | nil => cases hhead
    | cons second lines =>
      have hsecond := (hlines second (List.mem_cons_self ..)).isNewline
      rw [List.flatMap_cons] at hhead
      cases htext : second.toList with
      | nil =>
        rw [htext] at hhead
        cases hhead
      | cons c cs =>
        rw [htext] at hhead hsecond
        obtain rfl : c = '\n' := Option.some.inj hhead
        cases hsecond _ (List.mem_cons_self ..)

theorem linesOf_flatMap {terminator : List Char} (hterminator : terminator ∈ terminators)
    {lines : List String} (h : ∀ line ∈ lines, IsEntry line) :
    linesOf (lines.flatMap fun line => line.toList ++ terminator) = lines := by
  have hforeign : ∀ c ∈ lines.flatMap fun line => line.toList ++ terminator,
      isForeign c = false := by
    intro c hc
    obtain ⟨line, hline, hc⟩ := List.mem_flatMap.1 hc
    rcases List.mem_append.1 hc with hc | hc
    · rw [isForeign, (h line hline).solid c hc]
      rfl
    · rw [isForeign, isNewline_of_mem_terminator hterminator c hc]
      simp
  rw [linesOf_eq (delimited_flatMap hterminator h) fun c hc =>
    hforeign c (List.dropLast_subset _ hc), List.map_map]
  have hstrip : ∀ line ∈ lines, ((Text.strip ∘ String.ofList) ∘ String.toList) line = line :=
    fun line hline => by simp [(h line hline).strip]
  rw [List.map_congr_left hstrip, List.map_id']

/-- **A file that was written line by line is read back.** -/
theorem read_fileOf (name : String) {terminator : List Char}
    (hterminator : terminator ∈ terminators) {lines : List String}
    (h : ∀ line ∈ lines, IsEntry line) :
    read name (.ok (fileOf terminator lines)) =
      .ok (lines, .programRead lines.length (Path.ofString name).text) := by
  refine read_eq_ok_iff.2 ⟨_, rfl, ?_, rfl⟩
  rw [String.toList_ofList, linesOf_flatMap hterminator h]

/-- **What is read from a file are entries.** -/
theorem isEntry_of_read {opened : Except FileError (List UInt8)}
    (h : read name opened = .ok (entries, event)) : ∀ entry ∈ entries, IsEntry entry := by
  obtain ⟨text, rfl⟩ := exists_linesOf_of_read h
  rw [linesOf_eq_map]
  intro entry hentry
  obtain ⟨piece, hpiece, rfl⟩ := List.mem_map.1 hentry
  refine isEntry_strip fun c hc => ?_
  rw [String.toList_ofList] at hc
  exact (pieces_splitLines _).solid piece hpiece c hc

/-- **Program files round-trip.**  A file of entries, each closed by the same terminator, is read as
these entries.  Whatever is read from any file are entries, so that they are read again from the
file that is written with them. -/
theorem files_round_trip :
    (∀ name terminator lines, terminator ∈ terminators → (∀ line ∈ lines, IsEntry line) →
      ∃ event, read name (.ok (fileOf terminator lines)) = .ok (lines, event)) ∧
    ∀ name opened entries event, read name opened = .ok (entries, event) →
      (∀ entry ∈ entries, IsEntry entry) ∧
      ∀ other, ∀ terminator ∈ terminators, ∃ event,
        read other (.ok (fileOf terminator entries)) = .ok (entries, event) := by
  refine ⟨fun name terminator lines hterminator h => ⟨_, read_fileOf name hterminator h⟩, ?_⟩
  intro name opened entries event hread
  have hentries := isEntry_of_read hread
  exact ⟨hentries, fun other terminator hterminator => ⟨_, read_fileOf other hterminator hentries⟩⟩

/-- A program with empty lines, one of them the last. -/
def gappy : List String := ["", "JMP 2", "", "HLT", ""]

theorem isEntry_gappy : ∀ line ∈ gappy, IsEntry line := by
  have hstrip : ∀ line ∈ gappy, strip line = line := by decide
  have hsolid : ∀ line ∈ gappy, ∀ c ∈ line.toList, isLineEnd c = false := by
    simp [gappy, isLineEnd]
  intro line hline
  rw [← hstrip line hline]
  exact isEntry_strip (hsolid line hline)

theorem files_round_trip_gappy :
    (['\r'] ∈ terminators ∧ ∀ line ∈ gappy, IsEntry line) ∧
    (∃ event, read "p" (.ok (fileOf ['\r'] gappy)) = .ok (gappy, event)) ∧
    -- a file that was not written line by line
    (∃ event, read "p" (.ok (Utf8.encode "\t HLT \r\n\nDEC x")) =
      .ok (["HLT", "", "DEC x"], event)) ∧
    ['\r', '\n'] ∈ terminators ∧
    ∃ event, read "q" (.ok (fileOf ['\r', '\n'] ["HLT", "", "DEC x"])) =
      .ok (["HLT", "", "DEC x"], event) := by
  obtain ⟨hwritten, hread⟩ := files_round_trip
  have hreturn : ['\r'] ∈ terminators := by decide
  have hpair : ['\r', '\n'] ∈ terminators := by decide
  have hfile : read "p" (.ok (Utf8.encode "\t HLT \r\n\nDEC x")) =
      .ok (["HLT", "", "DEC x"], .programRead 3 "p") :=
    read_eq_ok_iff.2 ⟨_, rfl, by decide +kernel, by rfl⟩
  obtain ⟨-, hagain⟩ := hread _ _ _ _ hfile
  exact ⟨⟨hreturn, isEntry_gappy⟩, hwritten "p" _ gappy hreturn isEntry_gappy, ⟨_, hfile⟩, hpair,
    hagain "q" _ hpair⟩

end Accumulator.Program
