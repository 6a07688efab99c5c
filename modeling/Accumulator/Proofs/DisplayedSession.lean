import Accumulator.Proofs.Display
import Accumulator.Proofs.Tracing

/-!
# The display of a session

The display, which is the form of dumps and the events that are seen, does not matter to a session
unless it dumps a snapshot with a number of instructions that is too long to be written, which JSON
shows and the text does not (`display_immaterial_unless_parted`).  Instructions are counted one by
one, and a line grants no more of them than a batch, so no session comes there that is granted
fewer; one with a batch size that is itself nearly too long does (`not_always_immaterial`).
-/

namespace Accumulator

open Utterance (bare dumped dumped_eq)

/-- Where a session stands. -/
inductive Standing
  /-- It waits for the name of a program file. -/
  | naming
  /-- It has a machine and waits for an answer. -/
  | waiting (machine : Machine) (question : Question)
  | ended (ending : Ending)

/-- Where a session stands after a turn. -/
def Next.standing : Next → Standing
  | .wait session => .waiting session.machine session.question
  | .done ending => .ended ending

namespace Session

variable {o : Options} {d e : Display} {m : Machine}

/-! ### Program files -/

/-- What opening a program file leads to under any display. -/
inductive Opened (o : Options) : (Display → Turn Next) → Prop
  /-- The session ends. -/
  | refused {said : List Utterance} (silent : dumped said = []) (ending : Ending) :
      Opened o fun _ => ⟨said, .done ending⟩
  /-- The program is loaded. -/
  | loaded {said : List Utterance} (silent : dumped said = []) {m : Machine}
      {size : { n : Nat // 0 < n }} (batches : o.batchSize = some size)
      (batchSize : m.batchSize = size.1) (unexecuted : m.registers.executed = 0) :
      Opened o fun d => askCommand (o.showing d) m said

theorem opened_ofProgram {size : { n : Nat // 0 < n }} (hsize : o.batchSize = some size)
    {said : List Utterance} (silent : dumped said = []) (program : List Word) :
    Opened o fun d =>
      ofProgram (o.showing d) (Machine.blank size.1 (size_pos size)) said program := by
  have hsilent : ∀ events, dumped (said ++ notes events) = [] := fun events => by
    rw [Utterance.dumped_append, silent, Utterance.dumped_notes]
    rfl
  unfold ofProgram
  dsimp only
  cases hanswer : ((Machine.blank size.1 (size_pos size)).load program).answer with
  | error failure =>
    cases failure with
    | overlong error => exact .refused (hsilent _) _
    | fault fault => exact .refused (by rw [Utterance.dumped_append, hsilent]; rfl) _
  | ok =>
    obtain ⟨memory, -, hmachine⟩ := Machine.of_load hanswer
    show Opened o fun d => askCommand (o.showing d) (Machine.setTracing _ o.trace) _
    refine .loaded (hsilent _) hsize ?_ ?_
    · rw [hmachine]
      rfl
    · rw [hmachine]
      rfl

theorem exists_opened (o : Options) (name : String) (content : Except FileError (List UInt8)) :
    ∃ turn, (∀ d, ofFile (o.showing d) name content = turn d) ∧ Opened o turn := by
  have hbatches : ∀ d, (o.showing d).batchSize = o.batchSize := fun _ => rfl
  refine ⟨_, fun _ => rfl, ?_⟩
  unfold ofFile
  simp only [hbatches]
  cases hsize : o.batchSize with
  | none => exact .refused rfl _
  | some size =>
    unfold onMachine
    cases hread : Program.read name content with
    | ok program => exact opened_ofProgram hsize rfl _
    | error failure =>
      cases failure with
      | file error => cases error <;> exact .refused rfl _
      | failure failure => cases failure <;> exact .refused rfl _

theorem compare_ofFile (o : Options) (d e : Display) (name : String)
    (content : Except FileError (List UInt8)) :
    Comparison o d e (ofFile (o.showing d) name content) (ofFile (o.showing e) name content) := by
  obtain ⟨turn, hturn, hopened⟩ := exists_opened o name content
  rw [hturn, hturn]
  cases hopened with
  | refused silent ending =>
    exact .together (.done rfl ending) fun s hs => absurd hs (not_mem_of_silent silent s)
  | @loaded said silent m =>
    have hsilent : dumped (askCommand (o.showing d) m said).said = [] := by
      rw [dumped_askCommand, silent]
    exact .together (together_askCommand rfl m) fun s hs =>
      absurd hs (not_mem_of_silent hsilent s)

theorem executed_of_mem_dumped_file {name : String} {content : Except FileError (List UInt8)}
    {answers : List Reply} {s : Snapshot}
    (hs : s ∈ dumped (play (ofFile (o.showing d) name content) answers).said) :
    ∃ size, o.batchSize = some size ∧ 0 ≤ s.executed ∧
      s.executed ≤ (size.1 * Moment.lineCount answers : Nat) := by
  obtain ⟨turn, hturn, hopened⟩ := exists_opened o name content
  rw [hturn] at hs
  cases hopened with
  | refused silent ending =>
    rw [play_done] at hs
    exact absurd hs (not_mem_of_silent silent s)
  | @loaded _ silent m size batches batchSize unexecuted =>
    have hranges := ranges_askCommand (o.showing d) m silent
    rw [batchSize, unexecuted] at hranges
    obtain ⟨hleast, hmost⟩ := executed_of_mem_dumped_play hranges answers hs
    rw [Int.zero_add] at hmost
    exact ⟨size, batches, hleast, hmost⟩

/-! ### Whole sessions -/

/-- What a session has said, and where it stands, when it has read the answers and waits for
more. -/
def stand (o : Options) (files : Files) (answers : List Reply) : Turn Standing :=
  let enter := fun name answers =>
    proceed (ofFile o name (files.read (Path.ofString name))) answers
  match o.programName? with
  | some name => ⟨(enter name answers).said, (enter name answers).next.standing⟩
  | none =>
    match answers with
    | [] => ⟨[.askFile], .naming⟩
    | answer :: answers =>
      match nameFile answer with
      | .error turn => ⟨.askFile :: turn.said, .ended turn.next⟩
      | .ok name => ⟨.askFile :: (enter name answers).said, (enter name answers).next.standing⟩

/-- Whether a session goes on in the same way under two displays: after any portion of the answers
it has said the same, but for the texts of dumps, and stands at the same question about the same
machine, and so it is at the end of input. -/
structure DisplayImmaterial (o : Options) (files : Files) (answers : List Reply)
    (d e : Display) : Prop where
  stands : ∀ before, before <+: answers →
    (stand (o.showing d) files before).SameButDumps (stand (o.showing e) files before)
  played : (playAll (o.showing d) files answers).SameButDumps (playAll (o.showing e) files answers)

theorem agreeOrPart_playAll (h : d.format = .text ∨ d.format = e.format) (o : Options)
    (files : Files) (answers : List Reply) : AgreeOrPart d e
      (playAll (o.showing d) files answers) (playAll (o.showing e) files answers) := by
  have hfile := fun name =>
    agreeOrPart_play h (compare_ofFile o d e name (files.read (.ofString name)))
  have hname : ∀ d, (o.showing d).programName? = o.programName? := fun _ => rfl
  unfold playAll
  simp only [hname]
  cases o.programName? with
  | some name => exact hfile name answers
  | none =>
    cases answers with
    | nil => exact .agree ⟨rfl, rfl⟩ fun s hs => by cases hs
    | cons answer answers =>
      cases answer with
      | interrupt => exact .agree ⟨rfl, rfl⟩ fun s hs => by cases hs
      | line text =>
        have hasked : [Utterance.askFile].map bare = [Utterance.askFile].map bare := rfl
        exact (hfile (Text.strip text) answers).prepend hasked fun s hs => by cases hs

theorem Together.sameButDumps {first second : Turn Next} (h : Together o d e first second) :
    (⟨first.said, first.next.standing⟩ : Turn Standing).SameButDumps
      ⟨second.said, second.next.standing⟩ := by
  refine ⟨h.said, ?_⟩
  cases h with
  | wait => rfl
  | done => rfl

theorem sameButDumps_stand (h : d.format = .text ∨ d.format = e.format) {files : Files}
    (before after : List Reply)
    (hclear : ∀ s ∈ dumped (playAll (o.showing d) files (before ++ after)).said, ¬ s.Parts d e) :
    (stand (o.showing d) files before).SameButDumps (stand (o.showing e) files before) := by
  have hfile := fun name => together_proceed h
    (compare_ofFile o d e name (files.read (.ofString name)))
  have hname : ∀ d, (o.showing d).programName? = o.programName? := fun _ => rfl
  unfold playAll at hclear
  unfold stand
  simp only [hname] at hclear ⊢
  cases hnamed : o.programName? with
  | some name =>
    rw [hnamed] at hclear
    exact (hfile name before after hclear).sameButDumps
  | none =>
    rw [hnamed] at hclear
    cases before with
    | nil => exact ⟨rfl, rfl⟩
    | cons answer before =>
      cases answer with
      | interrupt => exact ⟨rfl, rfl⟩
      | line text =>
        have hsame := (hfile (Text.strip text) before after hclear).sameButDumps
        exact ⟨congrArg (Utterance.askFile :: ·) hsame.said, hsame.next⟩

/-- Two displays of which the first dumps as text, unless both dump in the same form. -/
theorem displayImmaterial_iff_of_format (h : d.format = .text ∨ d.format = e.format) (o : Options)
    (files : Files) (answers : List Reply) :
    DisplayImmaterial o files answers d e ↔
      ∀ s ∈ dumped (playAll (o.showing d) files answers).said ++
        dumped (playAll (o.showing e) files answers).said, ¬ s.Parts d e := by
  have hagree := agreeOrPart_playAll h o files answers
  constructor
  · intro hsame s hs
    have hsame := dumped_eq hsame.played.said
    rw [← hsame] at hs
    cases hagree with
    | agree _ clear => exact (List.mem_append.1 hs).elim (clear s) (clear s)
    -- sessions that go on alike dump equally many snapshots
    | part _ _ fewer => exact absurd fewer (by rw [hsame]; exact Nat.lt_irrefl _)
  · intro hclear
    have hfirst := fun s hs => hclear s (List.mem_append_left _ hs)
    cases hagree with
    | agree alike =>
      refine ⟨fun before hbefore => ?_, alike⟩
      obtain ⟨after, rfl⟩ := hbefore
      exact sameButDumps_stand h before after hfirst
    | part mem parts => exact absurd parts (hfirst _ mem)

theorem DisplayImmaterial.symm {files : Files} {answers : List Reply}
    (h : DisplayImmaterial o files answers d e) :
    DisplayImmaterial o files answers e d := by
  refine ⟨fun before hbefore => ?_, h.played.said.symm, h.played.next.symm⟩
  have hstand := h.stands before hbefore
  exact ⟨hstand.said.symm, hstand.next.symm⟩

theorem displayImmaterial_iff (o : Options) (files : Files) (answers : List Reply) (d e : Display) :
    DisplayImmaterial o files answers d e ↔
      ∀ s ∈ dumped (playAll (o.showing d) files answers).said ++
        dumped (playAll (o.showing e) files answers).said, ¬ s.Parts d e := by
  by_cases h : d.format = .text ∨ d.format = e.format
  · exact displayImmaterial_iff_of_format h o files answers
  · -- the first display dumps as JSON and the second as text, so they change places
    have hd : d.format = .json := by
      cases hd : d.format with
      | text => exact absurd (Or.inl hd) h
      | json => rfl
    have he : e.format = .text := by
      cases he : e.format with
      | text => rfl
      | json => exact absurd (Or.inr (hd.trans he.symm)) h
    have hsymm : DisplayImmaterial o files answers d e ↔ DisplayImmaterial o files answers e d :=
      ⟨fun hsame => hsame.symm, fun hsame => hsame.symm⟩
    have hparts : ∀ s : Snapshot, s.Parts d e ↔ s.Parts e d := fun s =>
      ⟨fun happart => happart.symm, fun happart => happart.symm⟩
    rw [hsymm, displayImmaterial_iff_of_format (Or.inl he)]
    refine forall_congr' fun s => ?_
    rw [List.mem_append, List.mem_append, or_comm, hparts]

theorem executed_of_mem_dumped_playAll {files : Files} {answers : List Reply} {s : Snapshot}
    (hs : s ∈ dumped (playAll (o.showing d) files answers).said) :
    ∃ size, o.batchSize = some size ∧ 0 ≤ s.executed ∧
      s.executed ≤ (size.1 * Moment.lineCount answers : Nat) := by
  unfold playAll at hs
  split at hs
  · exact executed_of_mem_dumped_file hs
  · cases answers with
    | nil => cases hs
    | cons answer answers =>
      cases answer with
      | interrupt => cases hs
      | line text =>
        obtain ⟨size, hsize, hleast, hmost⟩ := executed_of_mem_dumped_file hs
        refine ⟨size, hsize, hleast, ?_⟩
        rw [lineCount_cons, Nat.mul_add]
        omega

/-! ### Records -/

/-- The files that a session finds: the file that keeps its events was made ready. -/
def found (o : Options) (files : Files) : Except FileError Files :=
  match o.logName? with
  | none => .ok files
  | some name => openLog files (Path.ofString name)

/-- What is kept of a session does not depend on its dumps. -/
theorem collect_kept {said other : List Utterance} (h : said.map bare = other.map bare) :
    Utterance.collect Utterance.kept? said = Utterance.collect Utterance.kept? other := by
  have hkept : ∀ utterance : Utterance, utterance.bare.kept? = utterance.kept? := by
    intro utterance
    cases utterance <;> rfl
  rw [Utterance.collect, Utterance.collect, Utterance.filterMap_eq hkept h]

theorem sameButDumps_script {files : Files} {answers : List Reply}
    (h : ∀ opened, found o files = .ok opened → DisplayImmaterial o opened answers d e) :
    (script (o.showing d) files answers).SameButDumps (script (o.showing e) files answers) := by
  have hname : ∀ d, (o.showing d).logName? = o.logName? := fun _ => rfl
  unfold found at h
  unfold script
  simp only [hname]
  cases hlog : o.logName? with
  | none =>
    rw [hlog] at h
    have hsame := (h files rfl).played
    exact ⟨hsame.said, hsame.next, rfl⟩
  | some name =>
    rw [hlog] at h
    dsimp only at h ⊢
    unfold playLogged
    cases hopen : openLog files (Path.ofString name) with
    | error error => exact ⟨rfl, rfl, rfl⟩
    | ok opened =>
      have hsame := (h opened hopen).played
      simp only [bind, Except.bind]
      rw [collect_kept hsame.said]
      cases opened.append (Path.ofString name).straight _ with
      | error error => exact ⟨rfl, rfl, rfl⟩
      | ok kept => exact ⟨hsame.said, hsame.next, rfl⟩

/-! ### The display and the session -/

/-- **The display does not matter to a session unless a number of instructions is too long.**  A
session goes on alike under two displays exactly if no snapshot is dumped that parts them.  What is
dumped parts them exactly if one of them dumps as text and the other as JSON, and all that the text
shows can be written, but not the number of instructions executed.  That number is at most a batch
for every line that is typed.  So a session that is granted no more instructions than can be written
goes on alike under all displays.

The same holds of the record of a session, if the session goes on alike on the files that it
finds. -/
theorem display_immaterial_unless_parted (o : Options) (files : Files) (answers : List Reply)
    (d e : Display) :
    let dumps := dumped (playAll (o.showing d) files answers).said ++
      dumped (playAll (o.showing e) files answers).said
    (DisplayImmaterial o files answers d e ↔ ∀ s ∈ dumps, ¬ s.Parts d e) ∧
    (∀ s ∈ dumps, s.Parts d e ↔ d.format ≠ e.format ∧ (∀ n ∈ s.numerals, Numeral.fits n) ∧
      (Numeral.bound : Int) ≤ s.executed) ∧
    (∀ s ∈ dumps, ∃ size, o.batchSize = some size ∧ 0 ≤ s.executed ∧
      s.executed ≤ (size.1 * Moment.lineCount answers : Nat)) ∧
    ((∀ size, o.batchSize = some size → size.1 * Moment.lineCount answers < Numeral.bound) →
      DisplayImmaterial o files answers d e) ∧
    ((∀ opened, found o files = .ok opened → DisplayImmaterial o opened answers d e) →
      (script (o.showing d) files answers).SameButDumps (script (o.showing e) files answers)) := by
  intro dumps
  have hiff := displayImmaterial_iff o files answers d e
  have hexecuted : ∀ s ∈ dumps, ∃ size, o.batchSize = some size ∧ 0 ≤ s.executed ∧
      s.executed ≤ (size.1 * Moment.lineCount answers : Nat) := fun s hs =>
    (List.mem_append.1 hs).elim executed_of_mem_dumped_playAll executed_of_mem_dumped_playAll
  have hparts : ∀ s ∈ dumps, s.Parts d e ↔ d.format ≠ e.format ∧
      (∀ n ∈ s.numerals, Numeral.fits n) ∧ (Numeral.bound : Int) ≤ s.executed := by
    intro s hs
    obtain ⟨-, -, hleast, -⟩ := hexecuted s hs
    have hfits : Numeral.fits s.executed = false ↔ (Numeral.bound : Int) ≤ s.executed := by
      rw [Numeral.fits, decide_eq_false_iff_not]
      generalize Numeral.bound = bound
      omega
    rw [Snapshot.Parts, Snapshot.tellsApart_iff, hfits]
  refine ⟨hiff, hparts, hexecuted, fun hgranted => hiff.2 fun s hs happart => ?_,
    sameButDumps_script⟩
  obtain ⟨size, hsize, -, hmost⟩ := hexecuted s hs
  have hless := hgranted size hsize
  have hlong := ((hparts s hs).1 happart).2.2
  generalize Numeral.bound = bound at hless hlong
  omega

/-! ### An endless program -/

/-- The options of a session with the endless program. -/
def inBatches (size : { n : Nat // 0 < n }) : Options :=
  { program := some "p", batchSize := some size }

theorem room_jump : ((["JMP 0"] : List String).map Word.text).length ≤ Memory.standardSize := by
  decide

/-- The machine of a session with an endless program that has executed so many instructions. -/
def loopingAt (size : { n : Nat // 0 < n }) (executed : Int) : Machine :=
  { loaded (inBatches size) size ["JMP 0"] with registers := { executed } }

theorem fetch_loopingAt (size : { n : Nat // 0 < n }) (executed : Int) :
    (loopingAt size executed).fetch = .ok (.jump 0) := by
  have hwell : (Instruction.jump 0).WellFormed := by
    intro operand hoperand
    exact Option.some.inj hoperand ▸ Numeral.fits_zero
  refine Core.fetch_of_text hwell ?_
  show (loaded (inBatches size) size ["JMP 0"]).memory.read 0 = _
  rw [loaded_eq _ _ room_jump]
  rfl

theorem step_loopingAt (size : { n : Nat // 0 < n }) (executed : Int) :
    (loopingAt size executed).goesOn ∧
      (loopingAt size executed).step.machine = loopingAt size (executed + 1) :=
  Machine.step_of_execute (q := loopingAt size executed) rfl rfl (fetch_loopingAt size executed)
    rfl rfl

theorem stepped_loopingAt (size : { n : Nat // 0 < n }) (executed : Int) (count : Nat) :
    (loopingAt size executed).stepped count = loopingAt size (executed + count) ∧
      (loopingAt size executed).advance count = count := by
  induction count generalizing executed with
  | zero => exact ⟨by rw [Int.natCast_zero, Int.add_zero]; rfl, rfl⟩
  | succ count ih =>
    obtain ⟨hgoes, hstep⟩ := step_loopingAt size executed
    obtain ⟨hstepped, hadvance⟩ := ih (executed + 1)
    have hcount : executed + 1 + count = executed + (count + 1 : Nat) := by omega
    rw [Machine.advance_succ_of_goesOn hgoes, Machine.stepped, hstep, hstepped, hadvance, hcount]
    exact ⟨rfl, rfl⟩

theorem text_loopingAt (size : { n : Nat // 0 < n }) (executed : Int) (s : State) :
    ∃ text, ((loopingAt size executed).inState s).snapshot.text = .ok text := by
  have hmemory : (loaded (inBatches size) size ["JMP 0"]).memory.used.toList =
      [(0, .text "JMP 0")] := by
    rw [loaded_eq _ _ room_jump]
    show Memory.written 0 (["JMP 0"].map Word.text ++ List.replicate 255 Word.empty) = _
    decide +kernel
  have hsymbols : (loaded (inBatches size) size ["JMP 0"]).symbols.bindings.toList = [] := by
    rw [loaded_eq _ _ room_jump]
    rfl
  refine Snapshot.exists_text_iff.2 (Snapshot.forall_mem_numerals_iff.2
    ⟨Numeral.fits_zero, Numeral.fits_zero, Numeral.fits_zero, ?_, ?_⟩)
  · show ∀ cell ∈ (loaded (inBatches size) size ["JMP 0"]).memory.used.toList, _
    rw [hmemory]
    intro cell hcell n hn
    obtain rfl := List.mem_singleton.1 hcell
    obtain rfl := List.mem_singleton.1 hn
    exact Numeral.fits_zero
  · show ∀ entry ∈ (loaded (inBatches size) size ["JMP 0"]).symbols.bindings.toList, _
    rw [hsymbols]
    exact fun _ h => absurd h List.not_mem_nil

theorem batch_loopingAt (size : { n : Nat // 0 < n }) (executed : Int) (s : State) :
    ∃ events, ((loopingAt size executed).inState s).batch size.1 =
      ⟨(loopingAt size (executed + size.1)).inState .awaitingContinue, .ok .awaitingContinue,
        events⟩ := by
  obtain ⟨hstepped, hadvance⟩ := stepped_loopingAt size executed size.1
  rw [Machine.batch_inState, Machine.batch_of_advance_eq hadvance, hstepped]
  exact ⟨_, rfl⟩

theorem afterRequest_of_asked {text : String} (hdump : dump o m.snapshot = .ok text)
    (events : Array Event) : afterRequest o ⟨m, .ok .awaitingContinue, events⟩ =
      ⟨notes events ++ [.dump m.snapshot text] ++ [.ask .continuation],
        .wait ⟨o, m, .continuation⟩⟩ := by
  unfold afterRequest
  dsimp only
  rw [hdump]

/-- At the end of input a run is stopped and the session is left. -/
theorem next_of_asked {text other : String} (hdump : dump o m.snapshot = .ok text)
    (hlast : dump o (m.inState .stopped).snapshot = .ok other) (events : Array Event) :
    (play (afterRequest o ⟨m, .ok .awaitingContinue, events⟩) []).next = .exit 0 := by
  have hstop : m.stopRun = ⟨m.inState .stopped, .ok .stopped, #[.runStopped]⟩ := rfl
  have hstopped : (afterRequest o m.stopRun).next =
      .wait ⟨o, m.inState .stopped, .command⟩ := by
    unfold afterRequest
    rw [hstop]
    dsimp only
    rw [hlast]
    rfl
  rw [afterRequest_of_asked hdump, play_nil, close_continuation]
  generalize afterRequest o m.stopRun = turn at hstopped
  obtain ⟨said, next⟩ := turn
  obtain rfl : next = _ := hstopped
  rfl

theorem reply_run (hrunning : m.state.isTerminal = false) :
    (⟨o, m, .command⟩ : Session).reply (.line "a") = afterRequest o (m.batch m.batchSize) := by
  show afterRequest o (m.beginRun m.batchSize) = _
  rw [Machine.beginRun, hrunning]
  rfl

theorem reply_yes (o : Options) (m : Machine) :
    (⟨o, m, .continuation⟩ : Session).reply (.line "y") = afterRequest o (m.batch m.batchSize) :=
  rfl

/-- A run that is continued once. -/
def continued : List Reply := [.line "a", .line "y"]

/-- The request of the second answer is what becomes of a session whose first dump is written. -/
theorem next_looping (size : { n : Nat // 0 < n }) (d : Display) {text : String}
    (hdump : dump ((inBatches size).showing d)
      ((loopingAt size size.1).inState .awaitingContinue).snapshot = .ok text) :
    ∃ events, (playAll ((inBatches size).showing d) looping continued).next =
      (play (afterRequest ((inBatches size).showing d)
        ⟨(loopingAt size (size.1 + size.1)).inState .awaitingContinue, .ok .awaitingContinue,
          events⟩) []).next := by
  have hnames : Names ((inBatches size).showing d) continued [] "p" continued := .option rfl _
  have hsize : ∀ executed s, ((loopingAt size executed).inState s).batchSize = size.1 :=
    fun _ _ => rfl
  obtain ⟨events, hfirst⟩ := batch_loopingAt size 0 .ready
  obtain ⟨later, hsecond⟩ := batch_loopingAt size size.1 .awaitingContinue
  rw [Int.zero_add] at hfirst
  refine ⟨later, ?_⟩
  rw [playAll_of_loads hnames rfl read_looping (by decide)]
  show (play ((⟨(inBatches size).showing d, (loopingAt size 0).inState .ready, .command⟩ :
    Session).reply (.line "a")) [.line "y"]).next = _
  rw [reply_run rfl, hsize, hfirst, afterRequest_of_asked hdump, play_cons, reply_yes, hsize,
    hsecond]

/-- The display of dumps as text, with the events that are always seen. -/
def asText : Display := ⟨.text, 0, false⟩

/-- The same for dumps as JSON. -/
def asJson : Display := ⟨.json, 0, false⟩

theorem dump_asText (size : { n : Nat // 0 < n }) (executed : Int) (s : State) : ∃ text,
    dump ((inBatches size).showing asText) ((loopingAt size executed).inState s).snapshot =
      .ok text :=
  text_loopingAt size executed s

theorem dump_asJson (size : { n : Nat // 0 < n }) {executed : Int} (h : Numeral.fits executed)
    (s : State) : ∃ text,
    dump ((inBatches size).showing asJson) ((loopingAt size executed).inState s).snapshot =
      .ok text :=
  Snapshot.exists_json_iff.2 (List.forall_mem_cons.2
    ⟨h, Snapshot.exists_text_iff.1 (text_loopingAt size executed s)⟩)

theorem dump_asJson_of_overlong (size : { n : Nat // 0 < n }) {executed : Int}
    (h : Numeral.fits executed = false) (s : State) :
    dump ((inBatches size).showing asJson) ((loopingAt size executed).inState s).snapshot =
      .error .writing := by
  have happart : ((loopingAt size executed).inState s).snapshot.TellsApart :=
    Snapshot.tellsApart_iff.2 ⟨Snapshot.exists_text_iff.1 (text_loopingAt size executed s), h⟩
  show ((loopingAt size executed).inState s).snapshot.json = _
  cases hjson : ((loopingAt size executed).inState s).snapshot.json with
  | ok text => exact absurd ⟨text, hjson⟩ happart.2
  | error error => rw [Snapshot.onlyWriting_json _ error hjson]

/-- Dumped as text, the session ends in order. -/
theorem next_asText (size : { n : Nat // 0 < n }) :
    (playAll ((inBatches size).showing asText) looping continued).next = .exit 0 := by
  obtain ⟨_, hfirst⟩ := dump_asText size size.1 .awaitingContinue
  obtain ⟨_, hsecond⟩ := dump_asText size (size.1 + size.1) .awaitingContinue
  obtain ⟨_, hlast⟩ := dump_asText size (size.1 + size.1) .stopped
  obtain ⟨events, hnext⟩ := next_looping size asText hfirst
  rw [hnext]
  exact next_of_asked hsecond hlast events

/-- Dumped as JSON, it ends with the second batch. -/
theorem next_asJson {size : { n : Nat // 0 < n }} (hfits : Numeral.fits size.1)
    (hlong : Numeral.fits (size.1 + size.1) = false) :
    (playAll ((inBatches size).showing asJson) looping continued).next =
      .escape (.overlong .writing) := by
  obtain ⟨_, hfirst⟩ := dump_asJson size hfits .awaitingContinue
  have hsecond := dump_asJson_of_overlong size hlong .awaitingContinue
  obtain ⟨events, hnext⟩ := next_looping size asJson hfirst
  have hasked : (⟨(loopingAt size (size.1 + size.1)).inState .awaitingContinue,
      .ok .awaitingContinue, events⟩ : Report Overlong State).answer = .ok .awaitingContinue := rfl
  rw [hnext, afterRequest_of_overlong hasked hsecond]
  rfl

/-- The greatest batch size that can be written out. -/
def longest : { n : Nat // 0 < n } := ⟨Numeral.bound - 1, by decide +kernel⟩

/-- **The display is not always immaterial.**  A program that jumps to itself is run in batches of
the greatest size that can be written out, and the run is continued once.  Dumped as text, the
session ends in order.  Dumped as JSON, it ends where the second dump is not written. -/
theorem not_always_immaterial :
    (playAll ((inBatches longest).showing asText) looping continued).next = .exit 0 ∧
    (playAll ((inBatches longest).showing asJson) looping continued).next =
      .escape (.overlong .writing) ∧
    ¬ ∀ (o : Options) (files : Files) (answers : List Reply) (d e : Display),
      DisplayImmaterial o files answers d e := by
  have hfits : Numeral.fits longest.1 := by decide +kernel
  have hlong : Numeral.fits (longest.1 + longest.1) = false := by decide +kernel
  have hjson := next_asJson hfits hlong
  refine ⟨next_asText longest, hjson, fun h => ?_⟩
  have hsame := (h (inBatches longest) looping continued asText asJson).played.next
  rw [next_asText, hjson] at hsame
  cases hsame

end Session

end Accumulator
