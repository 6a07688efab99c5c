import Accumulator.Proofs.Moments

/-!
# What is dumped, and how many instructions it shows

A session dumps snapshots of its machine.  After a request it dumps the machine as it stands then,
or nothing if that cannot be written (`dumped_afterRequest`, `afterRequest_of_overlong`).

A line leads to the same under all options (`Reaction`): it makes a request, which executes no more
than a batch of instructions (`Grants`), or it makes none.  So a dump shows no more instructions
than a batch for every line (`executed_of_mem_dumped_play`).  The induction is on the answers, and
its invariant is that the machine stands within the limits of its dumps (`Ranges`).
-/

namespace Accumulator

namespace Utterance

/-- The snapshot that is dumped. -/
def snapshot? : Utterance → Option Snapshot
  | dump snapshot _ => some snapshot
  | _ => none

/-- The snapshots that are dumped in what is said. -/
def dumped (said : List Utterance) : List Snapshot := said.filterMap snapshot?

@[simp] theorem dumped_nil : dumped [] = [] := rfl

@[simp] theorem dumped_cons (utterance : Utterance) (said : List Utterance) :
    dumped (utterance :: said) = utterance.snapshot?.toList ++ dumped said := by
  cases utterance <;> rfl

@[simp] theorem dumped_append (said other : List Utterance) :
    dumped (said ++ other) = dumped said ++ dumped other :=
  List.filterMap_append

theorem dumped_notes (events : Array Event) : dumped (Session.notes events) = [] := by
  simp [dumped, Session.notes, snapshot?, List.filterMap_map]

theorem dumped_farewell (o : Options) (m : Machine) : dumped (Session.farewell o m) = [] := by
  unfold Session.farewell
  split <;> rfl

end Utterance

open Utterance (dumped)

namespace Session

variable {o : Options} {m : Machine}

/-! ### Dumps after a request -/

theorem not_mem_of_silent {said : List Utterance} (silent : dumped said = []) (s : Snapshot) :
    s ∉ dumped said := by
  rw [silent]
  exact List.not_mem_nil

theorem dumped_afterRequest {report : Report Overlong State} {state : State} {text : String}
    (hanswer : report.answer = .ok state)
    (hdump : dump o report.machine.snapshot = .ok text) :
    dumped (afterRequest o report).said = [report.machine.snapshot] := by
  have hfarewell := Utterance.dumped_farewell o report.machine
  have hnotes := Utterance.dumped_notes report.events
  have hfaulted : dumped (report.machine.fault.toList.map .faulted) = [] := by
    cases report.machine.fault <;> rfl
  unfold afterRequest
  dsimp only
  rw [hanswer, hdump]
  cases state <;>
    simp [leave, askCommand, Utterance.snapshot?, hnotes, hfarewell, hfaulted]

theorem afterRequest_of_overlong {report : Report Overlong State} {state : State}
    {error : Overlong} (hanswer : report.answer = .ok state)
    (hdump : dump o report.machine.snapshot = .error error) :
    afterRequest o report = ⟨notes report.events, .done (.escape (.overlong error))⟩ := by
  unfold afterRequest
  dsimp only
  rw [hanswer, hdump]

/-- What is dumped after a request is the machine as it stands then. -/
theorem eq_of_mem_dumped_afterRequest {report : Report Overlong State} {s : Snapshot}
    (h : s ∈ dumped (afterRequest o report).said) :
    s = report.machine.snapshot ∧ ∃ state, report.answer = .ok state := by
  cases hanswer : report.answer with
  | error error =>
    unfold afterRequest at h
    dsimp only at h
    rw [hanswer, Utterance.dumped_notes] at h
    cases h
  | ok state =>
    cases hdump : dump o report.machine.snapshot with
    | error error =>
      rw [afterRequest_of_overlong hanswer hdump, Utterance.dumped_notes] at h
      cases h
    | ok text =>
      rw [dumped_afterRequest hanswer hdump] at h
      exact ⟨List.mem_singleton.1 h, state, rfl⟩

/-! ### What a line leads to -/

/-- A report of work that has taken no more than a batch of instructions. -/
structure Grants (m : Machine) (report : Report Overlong State) : Prop where
  batchSize : report.machine.batchSize = m.batchSize
  atLeast : m.registers.executed ≤ report.machine.registers.executed
  atMost : report.machine.registers.executed ≤ m.registers.executed + m.batchSize

/-- A cycle executes one instruction or none. -/
theorem executed_cycle_cases (m : Machine) :
    m.cycle.machine.registers.executed = m.registers.executed ∨
      m.cycle.machine.registers.executed = m.registers.executed + 1 := by
  cases hanswer : m.cycle.answer with
  | error failure => exact Or.inl (by rw [Machine.toCore_cycle_of_error hanswer])
  | ok pace =>
    have hcycle := m.cycleOutcome
    generalize m.cycle = report at hanswer hcycle
    cases hcycle with
    | executed _ _ hexecute => exact Or.inr (Core.registers_execute hexecute).1
    | _ => cases hanswer

theorem executed_cycles (m : Machine) (noted : Array Event) (count : Nat) :
    m.registers.executed ≤ (m.cycles noted count).machine.registers.executed ∧
      (m.cycles noted count).machine.registers.executed ≤ m.registers.executed + count := by
  induction count generalizing m noted with
  | zero => exact ⟨Int.le_refl _, Int.le_of_eq (Int.add_zero _).symm⟩
  | succ count ih =>
    have hone := executed_cycle_cases m
    rw [cycles_succ]
    split
    · have hlater := ih m.cycle.machine (noted ++ m.cycle.events)
      omega
    · dsimp only
      omega

theorem grants_of_registers {report : Report Overlong State}
    (hsize : report.machine.batchSize = m.batchSize)
    (hregisters : report.machine.registers = m.registers) : Grants m report := by
  refine ⟨hsize, Int.le_of_eq (congrArg Registers.executed hregisters.symm), ?_⟩
  rw [hregisters]
  omega

theorem grants_finish (work : Work) (h : work.cycles ≤ m.batchSize) :
    Grants m (work.finish (m.start.cycles #[] work.cycles)) := by
  obtain ⟨hsize, hregisters, -⟩ := finish_cases work (m.start.cycles #[] work.cycles)
  obtain ⟨hleast, hmost⟩ := executed_cycles m.start #[] work.cycles
  refine ⟨hsize.trans (m.start.batchSize_cycles _ _), ?_, ?_⟩
  · rw [hregisters]
    exact hleast
  · rw [hregisters]
    have hstart : m.start.registers = m.registers := rfl
    rw [hstart] at hmost
    omega

theorem grants_batch (m : Machine) : Grants m (m.batch m.batchSize) :=
  grants_finish (.batch m.batchSize) (Nat.le_refl _)

theorem grants_beginRun (m : Machine) : Grants m (m.beginRun m.batchSize) := by
  unfold Machine.beginRun
  split
  · exact grants_of_registers rfl rfl
  · exact grants_batch m

theorem grants_step (m : Machine) : Grants m m.step := by
  unfold Machine.step
  split
  · exact grants_of_registers rfl rfl
  · rw [← cycles_one]
    exact grants_finish .step m.batchSize_pos

/-- What a line leads to, whatever the options are. -/
inductive Reaction (m : Machine) : (Options → Turn Next) → Prop
  /-- The machine is asked for something. -/
  | requested {report : Report Overlong State} (grants : Grants m report) :
      Reaction m fun o => afterRequest o report
  /-- The line is no command. -/
  | refused : Reaction m fun o => askCommand o m [.noCommand]
  /-- The user leaves. -/
  | left : Reaction m fun o => leave o m [] .done

theorem exists_reaction (m : Machine) (question : Question) (text : String) :
    ∃ turn, (∀ o, (⟨o, m, question⟩ : Session).reply (.line text) = turn o) ∧ Reaction m turn := by
  refine ⟨_, fun _ => rfl, ?_⟩
  cases question with
  | continuation =>
    show Reaction m fun o => decide o m (saysYes text)
    cases saysYes text with
    | false => exact .requested (grants_of_registers rfl rfl)
    | true => exact .requested (grants_batch m)
  | command =>
    show Reaction m fun o => obey o m (Command.ofLine? text)
    cases Command.ofLine? text with
    | none => exact .refused
    | some command =>
      cases command with
      | step => exact .requested (grants_step m)
      | run => exact .requested (grants_beginRun m)
      | quit => exact .left

/-! ### How many instructions a dump can show -/

/-- Whether the dumps of a turn, and the machine that it leads to, show a number of instructions
within limits, and the machine has batches of the size. -/
structure Ranges (b : Nat) (low high : Int) (turn : Turn Next) : Prop where
  dumps : ∀ s ∈ dumped turn.said, low ≤ s.executed ∧ s.executed ≤ high
  machine : ∀ s, turn.next = .wait s → s.machine.batchSize = b ∧
    low ≤ s.machine.registers.executed ∧ s.machine.registers.executed ≤ high

theorem ranges_afterRequest {report : Report Overlong State} (h : Grants m report) (o : Options) :
    Ranges m.batchSize m.registers.executed (m.registers.executed + m.batchSize)
      (afterRequest o report) := by
  refine ⟨fun s hs => ?_, fun s hs => ?_⟩
  · obtain ⟨rfl, -⟩ := eq_of_mem_dumped_afterRequest hs
    exact ⟨h.atLeast, h.atMost⟩
  · obtain ⟨hsize, hexecuted⟩ := keeps_afterRequest h.batchSize (fun _ _ _ => rfl) s hs
    rw [hexecuted]
    exact ⟨hsize, h.atLeast, h.atMost⟩

theorem dumped_askCommand (o : Options) (m : Machine) (said : List Utterance) :
    dumped (askCommand o m said).said = dumped said := by
  simp [askCommand, Utterance.snapshot?]

theorem ranges_askCommand (o : Options) (m : Machine) {said : List Utterance}
    (silent : dumped said = []) :
    Ranges m.batchSize m.registers.executed m.registers.executed (askCommand o m said) := by
  refine ⟨fun s hs => absurd hs (not_mem_of_silent ?_ s), fun s hs => ?_⟩
  · rw [dumped_askCommand, silent]
  · obtain rfl := Next.wait.inj hs
    exact ⟨rfl, Int.le_refl _, Int.le_refl _⟩

theorem ranges_done (b : Nat) (low high : Int) {said : List Utterance} (silent : dumped said = [])
    (ending : Ending) : Ranges b low high ⟨said, .done ending⟩ :=
  ⟨fun s hs => absurd hs (not_mem_of_silent silent s), fun _ hs => by cases hs⟩

theorem Ranges.mono {b : Nat} {low high less more : Int} {turn : Turn Next}
    (h : Ranges b low high turn) (hlow : less ≤ low) (hhigh : high ≤ more) :
    Ranges b less more turn := by
  refine ⟨fun s hs => ?_, fun s hs => ?_⟩
  · obtain ⟨hleast, hmost⟩ := h.dumps s hs
    exact ⟨Int.le_trans hlow hleast, Int.le_trans hmost hhigh⟩
  · obtain ⟨hsize, hleast, hmost⟩ := h.machine s hs
    exact ⟨hsize, Int.le_trans hlow hleast, Int.le_trans hmost hhigh⟩

/-- A line grants a batch at most. -/
theorem ranges_reply (o : Options) (m : Machine) (question : Question) (answer : Reply) :
    Ranges m.batchSize m.registers.executed
      (m.registers.executed + (m.batchSize * Moment.lineCount [answer] : Nat))
      ((⟨o, m, question⟩ : Session).reply answer) := by
  cases answer with
  | interrupt => exact ranges_done _ _ _ rfl _
  | line text =>
    have hone : ((m.batchSize * Moment.lineCount [.line text] : Nat) : Int) = m.batchSize :=
      congrArg Nat.cast (Nat.mul_one m.batchSize)
    rw [hone]
    obtain ⟨turn, hreply, hreaction⟩ := exists_reaction m question text
    rw [hreply]
    cases hreaction with
    | requested grants => exact ranges_afterRequest grants o
    | refused => exact (ranges_askCommand o m rfl).mono (Int.le_refl _) (by omega)
    | left => exact ranges_done _ _ _ (Utterance.dumped_farewell o m) _

/-- At the end of input nothing more is executed. -/
theorem executed_of_mem_dumped_close {question : Question} {s : Snapshot}
    (h : s ∈ dumped (Session.close ⟨o, m, question⟩).said) :
    s.executed = m.registers.executed := by
  have hfarewell := fun o m => not_mem_of_silent (Utterance.dumped_farewell o m) s
  cases question with
  | command => exact absurd h (hfarewell o m)
  | continuation =>
    have hstop (hs : s ∈ dumped (afterRequest o m.stopRun).said) :
        s.executed = m.registers.executed := by
      rw [(eq_of_mem_dumped_afterRequest hs).1]
      rfl
    unfold close decide at h
    simp only [Bool.false_eq_true, ↓reduceIte] at h
    split at h
    · exact hstop h
    · rw [Utterance.dumped_append] at h
      exact (List.mem_append.1 h).elim hstop fun hs => absurd hs (hfarewell _ _)

theorem lineCount_cons (answer : Reply) (answers : List Reply) :
    Moment.lineCount (answer :: answers) =
      Moment.lineCount [answer] + Moment.lineCount answers := by
  simp [Moment.lineCount, List.countP_cons, Nat.add_comm]

/-- **A dump shows no more instructions than were granted.** -/
theorem executed_of_mem_dumped_play {b : Nat} {low high : Int} {turn : Turn Next}
    (h : Ranges b low high turn) (answers : List Reply) {s : Snapshot}
    (hs : s ∈ dumped (play turn answers).said) :
    low ≤ s.executed ∧ s.executed ≤ high + (b * Moment.lineCount answers : Nat) := by
  have hwidened (hs : s ∈ dumped turn.said) :
      low ≤ s.executed ∧ s.executed ≤ high + (b * Moment.lineCount answers : Nat) := by
    obtain ⟨hleast, hmost⟩ := h.dumps s hs
    exact ⟨hleast, by omega⟩
  obtain ⟨said, next⟩ := turn
  cases next with
  | done ending =>
    rw [play_done] at hs
    exact hwidened hs
  | wait session =>
    obtain ⟨o, m, question⟩ := session
    obtain ⟨rfl, hleast, hmost⟩ := h.machine _ rfl
    dsimp only at hleast hmost hwidened ⊢
    -- each line moves the limits of what is dumped after it by a batch
    cases answers with
    | nil =>
      rw [play_nil, Utterance.dumped_append] at hs
      rcases List.mem_append.1 hs with hs | hs
      · exact hwidened hs
      · rw [executed_of_mem_dumped_close hs]
        exact ⟨hleast, by omega⟩
    | cons answer answers =>
      rw [play_cons, Utterance.dumped_append] at hs
      rcases List.mem_append.1 hs with hs | hs
      · exact hwidened hs
      · obtain ⟨hlow, hhigh⟩ :=
          executed_of_mem_dumped_play (ranges_reply o m question answer) answers hs
        rw [lineCount_cons, Nat.mul_add, Int.natCast_add]
        exact ⟨by omega, by omega⟩

end Session

end Accumulator
