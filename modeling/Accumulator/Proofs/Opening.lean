import Accumulator.Proofs.Programmed
import Accumulator.Session.Script

/-!
# How a session comes to its first question

A session whose program file is named, by the options or by the first answer, and loads begins by
asking what to do with the machine `loaded`, and is from there on a session with the answers that
remain (`playAll_of_loads`).

The answers of a session may be taken in two portions: `proceed` is the session after the first of
them.  So a session that waits for an answer and is broken off says no more than that it was
(`play_interrupt`).
-/

namespace Accumulator

namespace Files

theorem find_put (files : Files) (place other : Place) (entry : Entry) :
    Files.find? (files.put place entry) other =
      if place = other then some entry else files.find? other := by
  rw [find?, put, Std.HashMap.getElem?_insert]
  by_cases h : place = other
  · simp [h]
  · simp [h, find?]

theorem find_empty (place : Place) : empty.find? place = place.standardEntry? := by
  simp [find?, empty]

end Files

namespace Session

variable {o : Options} {m : Machine}

/-! ### Portions of answers -/

/-- The session from a turn on with answers after which the input has not ended. -/
def proceed (turn : Turn Next) (answers : List Reply) : Turn Next :=
  match turn.next with
  | .done _ => turn
  | .wait session =>
    match answers with
    | [] => turn
    | answer :: answers =>
      let rest := proceed (session.reply answer) answers
      ⟨turn.said ++ rest.said, rest.next⟩

theorem play_done (said : List Utterance) (ending : Ending) (answers : List Reply) :
    play ⟨said, .done ending⟩ answers = ⟨said, ending⟩ := by
  cases answers <;> rfl

theorem play_nil (said : List Utterance) (s : Session) :
    play ⟨said, .wait s⟩ [] = ⟨said ++ s.close.said, s.close.next⟩ := rfl

theorem play_cons (said : List Utterance) (s : Session) (answer : Reply) (answers : List Reply) :
    play ⟨said, .wait s⟩ (answer :: answers) =
      ⟨said ++ (play (s.reply answer) answers).said, (play (s.reply answer) answers).next⟩ := rfl

theorem play_reply_interrupt (s : Session) (answers : List Reply) :
    play (s.reply .interrupt) answers = ⟨[.note .interrupted], .interrupted⟩ :=
  play_done _ _ answers

/-- What was said before stands in front. -/
theorem play_append (earlier said : List Utterance) (next : Next) (answers : List Reply) :
    play ⟨earlier ++ said, next⟩ answers =
      ⟨earlier ++ (play ⟨said, next⟩ answers).said, (play ⟨said, next⟩ answers).next⟩ := by
  cases next with
  | done ending => rw [play_done, play_done]
  | wait s =>
    cases answers with
    | nil => simp only [play_nil, List.append_assoc]
    | cons answer answers => simp only [play_cons, List.append_assoc]

theorem play_proceed (turn : Turn Next) (before after : List Reply) :
    play turn (before ++ after) = play (proceed turn before) after := by
  obtain ⟨said, next⟩ := turn
  induction before generalizing said next with
  | nil => cases next <;> rfl
  | cons answer before ih =>
    cases next with
    | done ending => rw [play_done]; exact (play_done said ending after).symm
    | wait s =>
      have hturn : proceed ⟨said, .wait s⟩ (answer :: before) =
          ⟨said ++ (proceed (s.reply answer) before).said,
            (proceed (s.reply answer) before).next⟩ := rfl
      rw [List.cons_append, play_cons, hturn, play_append, ih]

/-- **A session that waits for an answer can be broken off.** -/
theorem play_interrupt {turn : Turn Next} {before : List Reply} {s : Session}
    (h : (proceed turn before).next = .wait s) (after : List Reply) :
    play turn (before ++ .interrupt :: after) =
      ⟨(proceed turn before).said ++ [.note .interrupted], .interrupted⟩ := by
  rw [play_proceed]
  generalize proceed turn before = waiting at h ⊢
  obtain ⟨said, next⟩ := waiting
  obtain rfl : next = .wait s := h
  rw [play_cons, play_reply_interrupt]

/-! ### The program file -/

/-- Whether the options or else the first answer names a program file.  Shown are the answers, what
is asked for the name, the name and the answers that remain. -/
inductive Names (o : Options) : List Reply → List Utterance → String → List Reply → Prop
  | option {name : String} (named : o.programName? = some name) (answers : List Reply) :
      Names o answers [] name answers
  | answer (unnamed : o.programName? = none) (line : String) (answers : List Reply) :
      Names o (.line line :: answers) [.askFile] (Text.strip line) answers

theorem size_pos (size : { n : Nat // 0 < n }) : 0 < size.1 := size.2

/-- The machine that a session with a program of these lines begins with. -/
def loaded (o : Options) (size : { n : Nat // 0 < n }) (lines : List String) : Machine :=
  ((Machine.blank size.1 (size_pos size)).load (lines.map .text)).machine.setTracing o.trace

/-- The first turn of a session with a program of these lines, which were read as the event says. -/
def opening (o : Options) (size : { n : Nat // 0 < n }) (lines : List String) (event : Event) :
    Turn Next :=
  askCommand o (loaded o size lines)
    (.note event :: notes ((Machine.blank size.1 (size_pos size)).load (lines.map .text)).events)

theorem answer_load_lines (size : { n : Nat // 0 < n }) {lines : List String}
    (hroom : lines.length ≤ Memory.standardSize) :
    ((Machine.blank size.1 size.2).load (lines.map .text)).answer = .ok () := by
  refine Machine.answer_load ?_
  rw [List.length_map]
  exact hroom

theorem ofFile_of_read {size : { n : Nat // 0 < n }} (hsize : o.batchSize = some size)
    {name : String} {opened : Except FileError (List UInt8)} {lines : List String} {event : Event}
    (hread : Program.read name opened = .ok (lines, event))
    (hroom : lines.length ≤ Memory.standardSize) :
    ofFile o name opened = opening o size lines event := by
  rw [ofFile, hsize]
  dsimp only
  rw [onMachine, hread]
  dsimp only
  rw [ofProgram, answer_load_lines size hroom]
  rfl

/-- **A session whose program loads is one with the loaded machine**, after the question for the
file if that was asked. -/
theorem playAll_of_loads {files : Files} {answers script : List Reply} {asked : List Utterance}
    {name : String} (hnames : Names o answers asked name script) {size : { n : Nat // 0 < n }}
    (hsize : o.batchSize = some size) {lines : List String} {event : Event}
    (hread : Program.read name (files.read (Path.ofString name)) = .ok (lines, event))
    (hroom : lines.length ≤ Memory.standardSize) :
    playAll o files answers =
      ⟨asked ++ (play (opening o size lines event) script).said,
        (play (opening o size lines event) script).next⟩ := by
  have hfile : playFile o files name script = play (opening o size lines event) script := by
    rw [playFile, ofFile_of_read hsize hread hroom]
  cases hnames with
  | option named =>
    rw [playAll, named]
    exact hfile
  | answer unnamed line =>
    rw [playAll, unnamed]
    exact congrArg (fun last : Turn Ending => (⟨.askFile :: last.said, last.next⟩ : Turn Ending))
      hfile

/-- A session that asks for a program file can be broken off. -/
theorem playAll_interrupt (h : o.programName? = none) (files : Files) (after : List Reply) :
    playAll o files (.interrupt :: after) = ⟨[.askFile, .note .interrupted], .interrupted⟩ := by
  rw [playAll, h]
  rfl

theorem loaded_eq (o : Options) (size : { n : Nat // 0 < n }) {lines : List String}
    (hroom : (lines.map Word.text).length ≤ Memory.standardSize) :
    loaded o size lines =
      { Machine.blank size.1 size.2 with
        memory := {
          size := Memory.standardSize
          cells := (lines.map Word.text ++
            List.replicate (256 - (lines.map Word.text).length) Word.empty).toArray
          size_cells := by
            have hsize : Memory.standardSize = 256 := rfl
            rw [hsize] at hroom ⊢
            simp only [List.size_toArray, List.length_append, List.length_replicate]
            omega }
        program := lines.map .text
        tracing := o.trace } := by
  have hload :
      (Memory.blank (Machine.blank size.1 size.2).memory.size).load (lines.map .text) = _ :=
    Memory.load_blank hroom
  rw [loaded, Machine.load, hload]
  rfl

/-- The machine that a session begins with is left to its programs, and ready to execute its first
instruction. -/
theorem programmed_loaded (o : Options) (size : { n : Nat // 0 < n }) {lines : List String}
    (hroom : lines.length ≤ Memory.standardSize) :
    (loaded o size lines).Programmed ∧ (loaded o size lines).state = .ready ∧
      (loaded o size lines).batchSize = size.1 ∧
      (loaded o size lines).registers.executed = 0 := by
  have hnew : Machine.new size.1 = .ok (Machine.blank size.1 size.2) := by
    have hpos : ¬ (size.1 : Int) < 1 := by
      have := size.2
      omega
    rw [Machine.new, dif_neg hpos]
    rfl
  have hwords : (lines.map Word.text).length ≤ Memory.standardSize := by
    rw [List.length_map]
    exact hroom
  refine ⟨((Machine.Programmed.new hnew).load _).setTracing _, ?_⟩
  rw [loaded_eq o size hwords]
  exact ⟨rfl, rfl, rfl⟩

/-! ### An instance -/

/-- A program file of one line. -/
def looping : Files := Files.empty.put ⟨["tmp", "/", "p"]⟩ (.file [74, 77, 80, 32, 48])

theorem read_looping : Program.read "p" (looping.read (Path.ofString "p")) =
    .ok (["JMP 0"], .programRead 1 "p") := by
  have hpath : Path.ofString "p" = ⟨"", ["p"]⟩ := by decide
  have hlocate : looping.locate ⟨"", ["p"]⟩ = .ok ⟨["tmp", "/", "p"]⟩ := by
    have hinUse : looping.find? .inUse = some .directory := by
      rw [looping, Files.find_put, Files.find_empty]
      decide
    have hshort : ¬ Files.maxPathBytes < (Path.text ⟨"", ["p"]⟩).utf8ByteSize := by decide
    have hnull : (Path.text ⟨"", ["p"]⟩).toList.contains '\x00' = false := by decide
    rw [Files.locate, hnull, if_neg Bool.false_ne_true, if_neg hshort]
    show looping.walk _ .inUse ["p"] = _
    rw [Files.walk, hinUse]
    rfl
  have hread : looping.read (Path.ofString "p") = .ok [74, 77, 80, 32, 48] := by
    have hfile : looping.find? ⟨["tmp", "/", "p"]⟩ = some (.file [74, 77, 80, 32, 48]) := by
      rw [looping, Files.find_put, if_pos rfl]
    rw [hpath, Files.read, hlocate]
    simp only [bind, Except.bind, hfile]
  rw [hread]
  rfl

/-- A batch of two instructions. -/
def pair : { n : Nat // 0 < n } := ⟨2, Nat.two_pos⟩

/-- The options for that program in such batches. -/
def inPairs : Options := { program := some "p", batchSize := some pair }

end Session

end Accumulator
