import Accumulator.Proofs.Loading
import Accumulator.Proofs.Programmed

/-!
# The life cycle

A `Call` is anything that can be asked of a machine that is left to its programs, and a `Life` is a
machine with the outcome of the last execution since it was given its program.  This outcome and the
state go together (`Life.Settled`): nothing was executed yet and the machine is ready, or it is in
the state that was answered, or there was no answer.  Then a numeral was too long and the machine is
still executing instructions, or whoever was asked for the word to continue failed to answer and the
machine still awaits it (`not_every_call_settles`).

To be asked is all that a `Trial` lets happen between batches: the snapshot is shown, and the
machine is not touched until there is an answer.  A run that is broken off differs from the one that
is declined at the same question in its outcome and in the state that it leaves (`BrokenOff`), so
what is known of requests carries over.

A machine that has halted or faulted ignores every trial (`ignores_of_isTerminal`).
-/

namespace Accumulator

/-- An attempt at executing instructions: a step, or a run with the answers to its questions, if
there is anybody to ask, and with what happens when there is no answer left. -/
inductive Trial
  | step
  | run (answers : Option (List Bool)) (asked : Option Int) (silence : Silence)

/-- The request that a trial makes if every question is answered. -/
def Trial.request : Trial → Execution
  | step => .step
  | run answers asked _ => .run answers asked

/-- What can be asked of a machine that is left to its programs. -/
inductive Call
  | load (program : List Word)
  | reset
  | execute (trial : Trial)
  | setTracing (on : Bool)
  | clearTrace

/-- A run that is broken off at a question, next to the run that is declined there. -/
structure BrokenOff (declined broken : Run) : Prop where
  declined_answer : declined.report.answer = .ok .stopped
  broken_answer : broken.report.answer = .ok .awaitingContinue
  machine : broken.report.machine = declined.report.machine.inState .awaitingContinue
  shown : broken.shown = declined.shown

namespace Machine

variable {m : Machine}

/-! ### Runs that are broken off -/

theorem state_settle {rest s : State} {report : Report Failure Pace}
    (h : (settle rest report).answer = .ok s) : (settle rest report).machine.state = s := by
  unfold settle at h ⊢
  dsimp only at h ⊢
  cases hanswer : report.answer with
  | ok pace => cases pace <;> simpa [hanswer] using h
  | error failure =>
    cases failure with
    | fault fault => simpa [hanswer] using h
    | overlong error => simp [hanswer] at h

/-- A batch answers the state in which it leaves the machine. -/
theorem state_batch {size : Nat} {s : State} (h : (m.batch size).answer = .ok s) :
    (m.batch size).machine.state = s := by
  have hsettled : (m.batch size).answer =
      (settle .awaitingContinue (m.start.cycles #[] size)).answer ∧ (m.batch size).machine =
      (settle .awaitingContinue (m.start.cycles #[] size)).machine := by
    unfold batch
    dsimp only
    split
    · exact ⟨rfl, rfl⟩
    · exact ⟨rfl, rfl⟩
  rw [hsettled.2]
  exact state_settle (hsettled.1 ▸ h)

theorem state_beginRun {size : Nat} {s : State} (h : (m.beginRun size).answer = .ok s) :
    (m.beginRun size).machine.state = s := by
  unfold beginRun at h ⊢
  split at h
  · next hm =>
    rw [if_pos hm]
    exact Except.ok.inj h
  · next hm =>
    rw [if_neg hm]
    exact state_batch h

/-- A run in which nobody fails to answer, or else is broken off. -/
theorem continueRun_breaksOff (size : Nat) (answers : List Bool) (shown : Array Snapshot)
    {report : Report Overlong State}
    (h : report.answer = .ok .awaitingContinue → report.machine.state = .awaitingContinue) :
    continueRun size report shown answers .breaksOff = continueRun size report shown answers ∨
      BrokenOff (continueRun size report shown answers)
        (continueRun size report shown answers .breaksOff) := by
  induction answers generalizing report shown with
  | nil =>
    by_cases hasked : report.answer = .ok .awaitingContinue
    · refine Or.inr ?_
      unfold continueRun
      rw [hasked]
      refine ⟨rfl, hasked, ?_, rfl⟩
      exact (inState_of_eq (h hasked)).symm
    · exact Or.inl (by rw [continueRun_of_ne hasked, continueRun_of_ne hasked])
  | cons answer answers ih =>
    by_cases hasked : report.answer = .ok .awaitingContinue
    · unfold continueRun
      rw [hasked]
      cases answer with
      | true => exact ih _ fun hnext => state_batch hnext
      | false => exact Or.inl rfl
    · exact Or.inl (by rw [continueRun_of_ne hasked, continueRun_of_ne hasked])

/-! ### Trials -/

/-- What a trial comes to.  A step shows no snapshots. -/
def undertake (m : Machine) : Trial → Run
  | .step => ⟨m.step, #[]⟩
  | .run answers asked silence => m.run answers asked silence

/-- The machine after trials, one after another. -/
def afterTrials (m : Machine) : List Trial → Machine
  | [] => m
  | trial :: trials => (m.undertake trial).report.machine.afterTrials trials

/-- What trials, one after another, answer and the snapshots that they show. -/
def outcomes (m : Machine) : List Trial → List (Except Abort State × Array Snapshot)
  | [] => []
  | trial :: trials =>
    let run := m.undertake trial
    (run.report.outcome, run.shown) :: run.report.machine.outcomes trials

/-- **A trial comes to what the request does**, or is broken off. -/
theorem undertake_cases (m : Machine) (trial : Trial) :
    (m.undertake trial).report = m.perform trial.request ∨
      ∃ declined : Run, declined.report = m.perform trial.request ∧
        BrokenOff declined (m.undertake trial) := by
  cases trial with
  | step => exact Or.inl rfl
  | run answers asked silence =>
    cases silence with
    | declines => exact Or.inl rfl
    | breaksOff =>
      cases answers with
      | none => exact Or.inl rfl
      | some answers =>
        have hbegun : (m.beginRun (m.runSize asked)).answer = .ok .awaitingContinue →
            (m.beginRun (m.runSize asked)).machine.state = .awaitingContinue := state_beginRun
        have hrun := continueRun_breaksOff (m.runSize asked) answers #[] hbegun
        refine hrun.imp (congrArg Run.report) fun hbroken => ?_
        exact ⟨m.run (some answers) asked, rfl, hbroken⟩

/-- A trial answers the state it leaves the machine in, which is one in which nothing is executed.
Or it has no answer, because a numeral was too long or because it was broken off. -/
theorem outcome_undertake (m : Machine) (trial : Trial) :
    let report := (m.undertake trial).report
    (report.outcome = .ok report.machine.state ∧
      report.machine.state ∈ [.ready, .stopped, .halted, .faulted]) ∨
    (∃ error, report.outcome = .error (.overlong error) ∧ report.machine.state = .running) ∨
    (report.outcome = .error .unanswered ∧ report.machine.state = .awaitingContinue) := by
  intro report
  rcases m.undertake_cases trial with hreport | ⟨declined, -, hbroken⟩
  · rw [show report = m.perform trial.request from hreport]
    rcases m.answer_perform trial.request with ⟨hanswer, hmem⟩ | ⟨error, hanswer, hstate⟩
    · refine Or.inl ⟨?_, hmem⟩
      rw [Report.outcome, hanswer]
      generalize (m.perform trial.request).machine.state = s at hmem
      cases s with
      | awaitingContinue => simp at hmem
      | _ => rfl
    · refine Or.inr (Or.inl ⟨error, ?_, hstate⟩)
      rw [Report.outcome, hanswer]
  · refine Or.inr (Or.inr ⟨?_, ?_⟩)
    · rw [Report.outcome, hbroken.broken_answer]
    · rw [hbroken.machine]
      rfl

theorem Orderly.undertake (hm : m.Orderly) (trial : Trial) :
    (m.undertake trial).report.machine.Orderly := by
  have hperformed := hm.perform trial.request
  rcases m.undertake_cases trial with hreport | ⟨declined, hdeclined, hbroken⟩
  · rw [hreport]
    exact hperformed
  · rw [hbroken.machine, hdeclined]
    refine hperformed.inState ?_ (by simp)
    have hanswer := hbroken.declined_answer
    rw [hdeclined] at hanswer
    rcases m.answer_perform trial.request with ⟨hok, -⟩ | ⟨error, herror, -⟩
    · rw [← Except.ok.inj (hanswer.symm.trans hok)]
      simp
    · cases hanswer.symm.trans herror

theorem size_undertake (m : Machine) (trial : Trial) :
    (m.undertake trial).report.machine.memory.size = m.memory.size := by
  have hperformed : (m.perform trial.request).machine.memory.size = m.memory.size :=
    (m.kept_respond (.execute trial.request)).2.1
  rcases m.undertake_cases trial with hreport | ⟨declined, hdeclined, hbroken⟩
  · rw [hreport]
    exact hperformed
  · rw [hbroken.machine, hdeclined]
    exact hperformed

theorem undertake_of_isTerminal (hm : m.state.isTerminal = true) (trial : Trial) :
    (m.undertake trial).report.outcome = .ok m.state ∧
      (m.undertake trial).report.machine = m ∧ (m.undertake trial).shown = #[] := by
  have hanswer : Report.outcome ⟨m, .ok m.state, #[]⟩ = .ok m.state := by
    rcases State.isTerminal_iff.1 hm with hstate | hstate
    · rw [hstate]
      rfl
    · rw [hstate]
      rfl
  cases trial with
  | step =>
    rw [undertake, step, if_pos hm]
    exact ⟨hanswer, rfl, rfl⟩
  | run answers asked silence =>
    rw [undertake, run_of_isTerminal hm]
    exact ⟨hanswer, rfl, rfl⟩

/-- A machine that has come to its end stays as it is, and nothing can be seen of trials but its
state. -/
theorem ignores_of_isTerminal (hm : m.state.isTerminal = true) (trials : List Trial) :
    m.afterTrials trials = m ∧ m.outcomes trials = trials.map fun _ => (.ok m.state, #[]) := by
  induction trials with
  | nil => exact ⟨rfl, rfl⟩
  | cons trial trials ih =>
    obtain ⟨houtcome, hmachine, hshown⟩ := undertake_of_isTerminal hm trial
    rw [afterTrials, outcomes, houtcome, hmachine, hshown, ih.1, ih.2]
    exact ⟨rfl, rfl⟩

end Machine

/-- A machine with the outcome of its last execution, if there was one since a program was loaded or
it was reset. -/
structure Life where
  machine : Machine
  latest : Option (Except Abort State)

namespace Life

variable {life : Life}

/-- A life after a call.  A call that is rejected counts for nothing. -/
def call (life : Life) : Call → Life
  | .load program =>
    let report := life.machine.load program
    ⟨report.machine, match report.answer with
      | .ok () => none
      | .error _ => life.latest⟩
  | .reset =>
    let report := life.machine.reset
    ⟨report.machine, match report.answer with
      | .ok () => none
      | .error _ => life.latest⟩
  | .execute trial =>
    let report := (life.machine.undertake trial).report
    ⟨report.machine, some report.outcome⟩
  | .setTracing on => { life with machine := life.machine.setTracing on }
  | .clearTrace => { life with machine := life.machine.clearTrace }

/-- A life after calls, one after another. -/
def after (life : Life) (calls : List Call) : Life := calls.foldl call life

/-- Whether the state is the one that the last execution has left the machine in. -/
def Settled (life : Life) : Prop :=
  match life.latest with
  | none => life.machine.state = .ready
  | some (.ok s) => life.machine.state = s ∧ s ∈ [.ready, .stopped, .halted, .faulted]
  | some (.error (.overlong _)) => life.machine.state = .running
  | some (.error .unanswered) => life.machine.state = .awaitingContinue

/-- The states in which no execution leaves a machine tell why there was no answer. -/
theorem Settled.tells (h : life.Settled) :
    (life.machine.state = .awaitingContinue ↔ life.latest = some (.error .unanswered)) ∧
    (life.machine.state = .running ↔
      ∃ error, life.latest = some (.error (.overlong error))) := by
  unfold Settled at h
  split at h
  · next hlatest => simp [h, hlatest]
  · next s hlatest =>
    obtain ⟨hstate, hmem⟩ := h
    have hawaits : s ≠ .awaitingContinue := by
      rintro rfl
      simp at hmem
    have hruns : s ≠ .running := by
      rintro rfl
      simp at hmem
    simp [hstate, hlatest, hawaits, hruns]
  · next hlatest => simp [h, hlatest]
  · next hlatest => simp [h, hlatest]

/-! ### What calls keep -/

theorem settled_of_fresh (h : life.machine.Fresh) (hnone : life.latest = none) :
    life.Settled := by
  rw [Settled, hnone]
  exact h.rewound.2.1

theorem settled_execute (life : Life) (trial : Trial) : (life.call (.execute trial)).Settled := by
  rcases life.machine.outcome_undertake trial with ⟨houtcome, hmem⟩ | ⟨error, houtcome, hstate⟩ |
    ⟨houtcome, hstate⟩
  · rw [call, Settled, houtcome]
    exact ⟨rfl, hmem⟩
  · rw [call, Settled, houtcome]
    exact hstate
  · rw [call, Settled, houtcome]
    exact hstate

/-- **Every call keeps the state the one that the last execution has left.** -/
theorem Settled.call (h : life.Settled) (horderly : life.machine.Orderly) (c : Call) :
    (life.call c).Settled := by
  cases c with
  | load program =>
    cases hload : (life.machine.load program).answer with
    | ok =>
      refine settled_of_fresh (.load hload) ?_
      simp [Life.call, hload]
    | error failure =>
      have hsame : life.call (.load program) = life := by
        simp [Life.call, hload, Machine.load_of_error hload]
      rw [hsame]
      exact h
  | reset =>
    rcases horderly.reset_cases with ⟨-, hreset⟩ | ⟨-, ⟨failure, hreset⟩, hmachine⟩
    · refine settled_of_fresh (.reset hreset) ?_
      simp [Life.call, hreset]
    · have hsame : life.call .reset = life := by
        simp [Life.call, hreset, hmachine]
      rw [hsame]
      exact h
  | execute trial => exact life.settled_execute trial
  | setTracing on => exact h
  | clearTrace => exact h

theorem orderly_call (h : life.machine.Orderly) (c : Call) : (life.call c).machine.Orderly := by
  cases c with
  | load program => exact h.load program
  | reset => exact h.reset
  | execute trial => exact h.undertake trial
  | setTracing on => exact h.setTracing on
  | clearTrace => exact h.clearTrace

theorem Settled.after (h : life.Settled) (horderly : life.machine.Orderly) (calls : List Call) :
    (life.after calls).Settled ∧ (life.after calls).machine.Orderly := by
  induction calls generalizing life with
  | nil => exact ⟨h, horderly⟩
  | cons c calls ih => exact ih (h.call horderly c) (orderly_call horderly c)

/-- Calls leave the size of memory alone. -/
theorem size_after (life : Life) (calls : List Call) :
    (life.after calls).machine.memory.size = life.machine.memory.size := by
  induction calls generalizing life with
  | nil => rfl
  | cons c calls ih =>
    refine (ih (life.call c)).trans ?_
    cases c with
    | load program => exact (life.machine.kept_respond (.load program)).2.1
    | reset => exact (life.machine.kept_respond .reset).2.1
    | execute trial => exact life.machine.size_undertake trial
    | setTracing on => rfl
    | clearTrace => rfl

/-- **The life cycle of a machine.**  Whatever is asked of a new machine that is left to its
programs, rejected calls and executions without an answer included, it has a fault exactly if it has
faulted.  It awaits the word to continue exactly if the last execution since it was given its
program was broken off at the question for it, and is executing instructions exactly if that
execution ended in a numeral that is too long.  When it has halted or faulted, every step and run
answers just this state, shows nothing and so asks nothing, and leaves the whole machine as it is.
A rejected program leaves it as it is too; after an accepted one it is ready and has no fault.  So
it is after a reset, unless the memory is of negative size: then the reset is rejected, and leaves
the machine as it is. -/
theorem life_cycle {batchSize memorySize room : Int} {start : Machine}
    (hstart : Machine.new batchSize memorySize room = .ok start) (calls : List Call) :
    let life := Life.after ⟨start, none⟩ calls
    let m := life.machine
    (m.state = .faulted ↔ ∃ fault, m.fault = some fault) ∧
    (m.state = .awaitingContinue ↔ life.latest = some (.error .unanswered)) ∧
    (m.state = .running ↔ ∃ error, life.latest = some (.error (.overlong error))) ∧
    (m.state = .halted ∨ m.state = .faulted → ∀ trials : List Trial,
      m.afterTrials trials = m ∧
        m.outcomes trials = trials.map fun _ => (.ok m.state, #[])) ∧
    (∀ program,
      ((m.load program).answer = .ok () ∧ (m.load program).machine.state = .ready ∧
        (m.load program).machine.fault = none) ∨
      ((∃ failure, (m.load program).answer = .error failure) ∧
        (m.load program).machine = m)) ∧
    (0 ≤ memorySize → m.reset.answer = .ok () ∧ m.reset.machine.state = .ready ∧
      m.reset.machine.fault = none) ∧
    (memorySize < 0 → (∃ failure, m.reset.answer = .error failure) ∧ m.reset.machine = m) := by
  intro life m
  obtain ⟨hsettled, horderly⟩ : life.Settled ∧ m.Orderly :=
    (settled_of_fresh (.new hstart) rfl).after (Machine.orderly_new hstart) calls
  have hsize : m.memory.size = memorySize :=
    (size_after ⟨start, none⟩ calls).trans (Machine.size_new hstart).1
  refine ⟨horderly.faulted_iff, hsettled.tells.1, hsettled.tells.2, fun hend trials => ?_,
    fun program => ?_, fun hroom => ?_, fun hneg => ?_⟩
  · exact Machine.ignores_of_isTerminal (State.isTerminal_iff.2 hend) trials
  · cases hload : (m.load program).answer with
    | ok =>
      obtain ⟨-, hready, hfault, -⟩ := (Machine.Fresh.load hload).rewound
      exact Or.inl ⟨rfl, hready, hfault⟩
    | error failure => exact Or.inr ⟨⟨failure, rfl⟩, Machine.load_of_error hload⟩
  · rcases horderly.reset_cases with ⟨-, hreset⟩ | ⟨hneg, -⟩
    · obtain ⟨-, hready, hfault, -⟩ := (Machine.Fresh.reset hreset).rewound
      exact ⟨hreset, hready, hfault⟩
    · omega
  · rcases horderly.reset_cases with ⟨hroom, -⟩ | ⟨-, hreset⟩
    · omega
    · exact hreset

/-- Calls that load a program, run it in batches until the run is broken off, step it into its fault
and have it ignored from then on, with a program that is too long in between. -/
def restarted : List Call := [
  .setTracing true,
  .load [.text "LDI 1", .text "JZS 0"],
  .execute (.run (some [true]) (some 1) .breaksOff),
  .load (List.replicate 3 (.text "HLT")),
  .execute .step]

theorem life_cycle_restarted :
    let start := Machine.blank 1 Nat.one_pos 2
    let m := (Life.after ⟨start, none⟩ restarted).machine
    Machine.new 1 2 = .ok start ∧ m.state = .faulted ∧ (∃ fault, m.fault = some fault) ∧
      m.afterTrials [.step, .run (some [true, true]) none .breaksOff] = m ∧
      m.reset.machine.state = .ready ∧ m.reset.machine.fault = none := by
  intro start m
  have hm : m = (Life.after ⟨start, none⟩ restarted).machine := rfl
  have hstart : Machine.new 1 2 = .ok start := rfl
  obtain ⟨hfault, -, -, hignores, -, hreset, -⟩ := life_cycle hstart restarted
  have hfaulted : m.state = .faulted := by decide +kernel
  refine ⟨hstart, hfaulted, hfault.1 hfaulted, (hignores (Or.inr hfaulted) _).1, ?_⟩
  rw [hm]
  exact (hreset (by decide)).2

/-- A program that loops, in a run whose first question nobody answers. -/
def abandoned : List Call :=
  [.load [.text "JMP 0"], .execute (.run (some []) none .breaksOff)]

/-- **A call can leave a machine awaiting the word to continue**, if whoever is asked for it fails
to answer; and a machine whose memory is of negative size cannot be reset, so it stays faulted. -/
theorem not_every_call_settles :
    (¬ ∀ (batchSize memorySize : Int) (start : Machine) (calls : List Call),
      Machine.new batchSize memorySize = .ok start →
        (Life.after ⟨start, none⟩ calls).machine.state ≠ .awaitingContinue) ∧
    ¬ ∀ (batchSize memorySize : Int) (start : Machine) (calls : List Call),
      Machine.new batchSize memorySize = .ok start →
        (Life.after ⟨start, none⟩ (calls ++ [.reset])).machine.state = .ready := by
  constructor
  · intro h
    have hnew : Machine.new 1 1 = .ok (Machine.blank 1 Nat.one_pos 1) := rfl
    have hawaits : (Life.after ⟨Machine.blank 1 Nat.one_pos 1, none⟩ abandoned).machine.state =
        .awaitingContinue := by decide +kernel
    exact h 1 1 _ abandoned hnew hawaits
  · intro h
    have hnew : Machine.new 1 (-1) = .ok (Machine.blank 1 Nat.one_pos (-1)) := rfl
    have hfaulted : (Life.after ⟨Machine.blank 1 Nat.one_pos (-1), none⟩
        [.execute .step, .reset]).machine.state = .faulted := by decide +kernel
    have hready := h 1 (-1) _ [.execute .step] hnew
    rw [List.singleton_append, hfaulted] at hready
    cases hready

end Life

end Accumulator
