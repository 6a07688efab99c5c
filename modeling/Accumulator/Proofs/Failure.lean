import Accumulator.Machine.Access
import Accumulator.Proofs.Run

/-!
# Failing cycles

A cycle can fail when the instruction is fetched or decoded, when its trace line is written and when
it is executed.  All of this happens before the core is touched, so a step that fails leaves the
machine as it was but for its state, its fault and one trace line (`FailedFrom`).  A run that fails
does so in its last cycle, and leaves the machine as the steps before that cycle left it
(`failure_changes_nothing`).
-/

namespace Accumulator

namespace Machine

variable {m : Machine}

/-- Whether what was asked of a machine ended in a fault or in a numeral that is too long. -/
def Failed (answer : Except Overlong State) : Prop :=
  answer = .ok .faulted ∨ ∃ error, answer = .error error

/-- What a failing cycle makes of the machine `before`: a machine with the same core and settings
and with at most one more line in its trace, which has faulted, or which the numeral left running
without a new fault. -/
structure FailedFrom (before after : Machine) (answer : Except Overlong State) : Prop where
  core : after.toCore = before.toCore
  settings : after.batchSize = before.batchSize ∧ after.program = before.program ∧
    after.tracing = before.tracing
  trace : after.trace = before.trace ∨ ∃ line, after.trace = before.trace.push line
  ending : (answer = .ok .faulted ∧ after.state = .faulted ∧ ∃ fault, after.fault = some fault) ∨
    ∃ error, answer = .error error ∧ after.state = .running ∧ after.fault = before.fault

theorem not_failed_ok {s : State} (hs : s ≠ .faulted) : ¬ Failed (.ok s) := by
  rintro (h | ⟨error, h⟩)
  · exact hs (Except.ok.inj h)
  · cases h

/-- A step that fails changes nothing. -/
theorem failedFrom_step (hm : m.state.isTerminal = false) (h : Failed m.step.answer) :
    FailedFrom m m.step.machine m.step.answer := by
  rcases step_cases hm with ⟨-, hanswer, -⟩ | ⟨-, hanswer, -⟩ | ⟨fault, hcycle, hanswer, hmachine⟩ |
    ⟨error, hcycle, hanswer, hmachine⟩
  · rw [hanswer] at h
    exact absurd h (not_failed_ok (by simp))
  · rw [hanswer] at h
    exact absurd h (not_failed_ok (by simp))
  · rw [hanswer, hmachine]
    exact ⟨toCore_cycle_of_error hcycle, m.settings_cycle, m.trace_cycle,
      Or.inl ⟨rfl, rfl, fault, rfl⟩⟩
  · have hfault : m.cycle.machine.fault = m.fault := by rw [frame_cycle]
    rw [hanswer, hmachine]
    exact ⟨toCore_cycle_of_error hcycle, m.settings_cycle, m.trace_cycle,
      Or.inr ⟨error, rfl, rfl, hfault⟩⟩

/-- A run that fails does so in the cycle after the steps that went on. -/
theorem failedFrom_run (hm : m.state.isTerminal = false) {answers : Option (List Bool)}
    {asked : Option Int} (h : Failed (m.run answers asked).report.answer) :
    ∃ n, (∀ k < n, (m.stepped k).step.answer = .ok .ready) ∧
      FailedFrom (m.stepped n) (m.run answers asked).report.machine
        (m.run answers asked).report.answer := by
  rw [report_run] at h ⊢
  have hfollows := followsSteps_run hm (answers.getD []) asked
  generalize m.runLimit (answers.getD []) asked = limit at hfollows
  rcases Nat.lt_or_eq_of_le (m.advance_le limit) with hlt | heq
  · obtain ⟨hanswer, hmachine⟩ := hfollows.ended hlt
    have hlast := isTerminal_stepped_of_le hm (Nat.le_refl (m.advance limit))
    rw [hanswer] at h
    rw [hanswer, hmachine, stepped_succ]
    exact ⟨m.advance limit, fun k hk => goesOn_iff.1 (goesOn_of_lt_advance hk),
      failedFrom_step hlast h⟩
  -- a run that was stopped has not failed
  · rw [(hfollows.stopped heq).1] at h
    exact absurd h (not_failed_ok (by simp))

/-- A traced program that stores in a variable that it has not declared. -/
def undeclared : Machine :=
  (((blank 1 Nat.one_pos 1).setTracing true).load [.text "STR X"]).machine

end Machine

end Accumulator
