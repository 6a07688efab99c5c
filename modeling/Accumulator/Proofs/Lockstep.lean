import Accumulator.Proofs.Performance
import Mathlib.Data.List.Forall2

/-!
# Machines in lockstep

Machines in a relation are in lockstep if a step has the same answer on both sides and keeps them in
the relation (`Lockstep`).  Then so has every request, for the answers of the steps decide where a
run ends (`Lockstep.perform`).

`observations` are what can be seen of requests, one after another.  If machines in the relation
also have the same snapshots, all that can be seen of them is the same (`Lockstep.observations`).
-/

namespace Accumulator

/-- Two requests, one to each of two machines, that ask for the same steps and give the same
answers. -/
inductive Execution.Corresponds (m n : Machine) : Execution → Execution → Prop
  | step : Corresponds m n .step .step
  | run {answers : Option (List Bool)} {asked other : Option Int}
      (size : m.runSize asked = n.runSize other) :
      Corresponds m n (.run answers asked) (.run answers other)

/-- What can be seen of a request. -/
structure Observation where
  answer : Except Overlong State
  /-- The snapshots shown on the way. -/
  shown : Array Snapshot
  /-- The snapshot afterwards. -/
  afterwards : Snapshot

namespace Machine

variable {m n : Machine}

/-- The snapshots that are shown in a request. -/
def shown (m : Machine) : Execution → Array Snapshot
  | .step => #[]
  | .run answers asked => (m.run answers asked).shown

/-- What can be seen of requests, one after another. -/
def observations (m : Machine) : List Execution → List Observation
  | [] => []
  | request :: requests =>
    let report := m.perform request
    ⟨report.answer, m.shown request, report.machine.snapshot⟩ ::
      report.machine.observations requests

/-- A machine that has come to its end answers its state, shows nothing and stays as it is. -/
theorem perform_of_isTerminal (hm : m.state.isTerminal = true) (request : Execution) :
    (m.perform request).answer = .ok m.state ∧ (m.perform request).machine = m ∧
      m.shown request = #[] := by
  cases request with
  | step =>
    rw [perform, step, hm]
    exact ⟨rfl, rfl, rfl⟩
  | run answers asked =>
    rw [perform, shown, run_of_isTerminal hm]
    exact ⟨rfl, rfl, rfl⟩

/-- A request leaves the batch size of the machine alone. -/
theorem runSize_perform (m : Machine) (request : Execution) (asked : Option Int) :
    (m.perform request).machine.runSize asked = m.runSize asked := by
  have hsize : (m.perform request).machine.batchSize = m.batchSize :=
    perform_induction (P := fun later => later.batchSize = m.batchSize)
      (fun later h => later.settings_step.1.trans h) (fun _ h _ => h) rfl request
  cases asked with
  | none => exact hsize
  | some n => rfl

/-- Whether machines in a relation have the same state, and steps with the same answers, which keep
them in it. -/
structure Lockstep (R : Machine → Machine → Prop) : Prop where
  state {m n : Machine} (h : R m n) : m.state = n.state
  answer {m n : Machine} (h : R m n) : m.step.answer = n.step.answer
  step {m n : Machine} (h : R m n) : R m.step.machine n.step.machine
  inState {m n : Machine} (h : R m n) (s : State) : R (m.inState s) (n.inState s)

namespace Lockstep

variable {R : Machine → Machine → Prop} (hR : Lockstep R)

include hR

theorem stepped (h : R m n) (k : Nat) : R (m.stepped k) (n.stepped k) := by
  induction k generalizing m n with
  | zero => exact h
  | succ k ih => exact ih (hR.step h)

theorem goesOn (h : R m n) : m.goesOn = n.goesOn := by
  rw [Machine.goesOn, Machine.goesOn, hR.answer h]

theorem advance (h : R m n) (limit : Nat) : m.advance limit = n.advance limit := by
  induction limit generalizing m n with
  | zero => rfl
  | succ limit ih => rw [Machine.advance, Machine.advance, hR.goesOn h, ih (hR.step h)]

theorem run (h : R m n) (answers : Option (List Bool)) {asked other : Option Int}
    (hsize : m.runSize asked = n.runSize other) :
    (m.run answers asked).report.answer = (n.run answers other).report.answer ∧
      R (m.run answers asked).report.machine (n.run answers other).report.machine := by
  cases hm : m.state.isTerminal with
  | true =>
    have hn : n.state.isTerminal = true := hR.state h ▸ hm
    rw [report_run_of_isTerminal hm, report_run_of_isTerminal hn]
    exact ⟨congrArg Except.ok (hR.state h), h⟩
  | false =>
    have hn : n.state.isTerminal = false := hR.state h ▸ hm
    have hfirst := followsSteps_run hm (answers.getD []) asked
    have hsecond := followsSteps_run hn (answers.getD []) other
    rw [report_run, report_run n]
    rw [runLimit, hsize] at hfirst
    rw [runLimit] at hsecond
    generalize ((answers.getD []).takeWhile id).length + 1 = batches at hfirst hsecond
    generalize batches * n.runSize other = limit at hfirst hsecond
    -- both runs end with the same step, or are stopped after all of them
    have hadvance := hR.advance h limit
    rcases Nat.lt_or_eq_of_le (m.advance_le limit) with hlt | heq
    · obtain ⟨hanswer, hmachine⟩ := hfirst.ended hlt
      obtain ⟨hanswer', hmachine'⟩ := hsecond.ended (hadvance ▸ hlt)
      rw [hanswer, hmachine, hanswer', hmachine', ← hadvance]
      exact ⟨hR.answer (hR.stepped h _), hR.stepped h _⟩
    · obtain ⟨hanswer, hmachine⟩ := hfirst.stopped heq
      obtain ⟨hanswer', hmachine'⟩ := hsecond.stopped (hadvance ▸ heq)
      rw [hanswer, hmachine, hanswer', hmachine']
      exact ⟨rfl, hR.inState (hR.stepped h limit) .stopped⟩

/-- **Requests that correspond keep machines in lockstep.** -/
theorem perform (h : R m n) {request other : Execution}
    (hrequests : request.Corresponds m n other) :
    (m.perform request).answer = (n.perform other).answer ∧
      R (m.perform request).machine (n.perform other).machine := by
  cases hrequests with
  | step => exact ⟨hR.answer h, hR.step h⟩
  | run hsize => exact hR.run h _ hsize

section Snapshots

variable (hsnapshot : ∀ m n, R m n → m.snapshot = n.snapshot)

include hsnapshot

theorem offered (h : R m n) (size count : Nat) : m.offered size count = n.offered size count := by
  have hshown : ∀ k, ((m.stepped k).inState .awaitingContinue).snapshot =
      ((n.stepped k).inState .awaitingContinue).snapshot :=
    fun k => hsnapshot _ _ (hR.inState (hR.stepped h k) _)
  rw [Machine.offered, Machine.offered]
  simp only [hshown]

theorem shown (h : R m n) {request other : Execution}
    (hrequests : request.Corresponds m n other) :
    m.shown request = n.shown other := by
  cases hrequests with
  | step => rfl
  | @run answers asked other hsize =>
    cases hm : m.state.isTerminal with
    | true =>
      have hn : n.state.isTerminal = true := hR.state h ▸ hm
      rw [Machine.shown, run_of_isTerminal hm, Machine.shown, run_of_isTerminal hn]
    | false =>
      have hn : n.state.isTerminal = false := hR.state h ▸ hm
      cases answers with
      | none => rfl
      | some answers =>
        have hfirst := (followsSteps_run hm answers asked).shown
        have hsecond := (followsSteps_run hn answers other).shown
        rw [Machine.shown, hfirst, Machine.shown, hsecond, runLimit, runLimit, hsize,
          hR.advance h, hR.offered hsnapshot h]

/-- **Machines in lockstep that have the same snapshots cannot be told apart.** -/
theorem observations (h : R m n) {requests others : List Execution}
    (hrequests : List.Forall₂ (Execution.Corresponds m n) requests others) :
    m.observations requests = n.observations others := by
  induction requests generalizing m n others with
  | nil =>
    cases hrequests
    rfl
  | cons request requests ih =>
    cases hrequests with
    | @cons _ other _ others hfirst hrest =>
      obtain ⟨hanswer, hafter⟩ := hR.perform h hfirst
      -- the batch sizes are what they were before the request
      have hlater : List.Forall₂ (Execution.Corresponds (m.perform request).machine
          (n.perform other).machine) requests others := by
        refine hrest.imp fun first second hrequests => ?_
        cases hrequests with
        | step => exact .step
        | run hsize =>
          refine .run ?_
          rw [runSize_perform, runSize_perform, hsize]
      rw [Machine.observations, Machine.observations, hanswer, hR.shown hsnapshot h hfirst,
        hsnapshot _ _ hafter, ih hafter hlater]

end Snapshots

end Lockstep

end Machine

end Accumulator
