import Accumulator.Proofs.Reachable

/-!
# Requests as steps

A request asks for a number of steps.  It ends with the first of them that does not go on; if all of
them do, it leaves the machine ready for another one, or stopped if it is a run (`performance`).

So what every step keeps, and being stopped does not harm, is kept by every request
(`perform_induction`).  A request answers the state it leaves the machine in (`answer_perform`),
unless it ends in a numeral that is too long, which it does exactly if the first of its steps that
does not go on does (`answer_perform_eq_error_iff`).
-/

namespace Accumulator

/-- The state in which a request leaves a machine all of whose steps go on. -/
def Execution.rest : Execution → State
  | .step => .ready
  | .run _ _ => .stopped

namespace Machine

variable {m : Machine}

/-- The most steps that a request asks for. -/
def demand (m : Machine) : Execution → Nat
  | .step => 1
  | .run answers asked => m.runLimit (answers.getD []) asked

/-- What a request comes to in terms of steps. -/
inductive Performance (m : Machine) (request : Execution) :
    Except Overlong State → Machine → Prop
  /-- It ends with the first step that does not go on. -/
  | ended {n : Nat} (within : n < m.demand request) (before : ∀ k < n, (m.stepped k).goesOn)
      (last : ¬ (m.stepped n).goesOn) :
      Performance m request (m.stepped n).step.answer (m.stepped n).step.machine
  /-- All its steps go on. -/
  | rested (before : ∀ k < m.demand request, (m.stepped k).goesOn) :
      Performance m request (.ok request.rest)
        ((m.stepped (m.demand request)).inState request.rest)

theorem demand_pos (m : Machine) (request : Execution) : 0 < m.demand request := by
  cases request with
  | step => exact Nat.one_pos
  | run answers asked => exact Nat.mul_pos (Nat.succ_pos _) (m.runSize_pos asked)

theorem performance_step (m : Machine) : m.Performance .step m.step.answer m.step.machine := by
  by_cases h : m.goesOn
  · rw [goesOn_iff.1 h, ← inState_of_eq (state_step_of_goesOn h)]
    refine .rested fun k hk => ?_
    obtain rfl : k = 0 := Nat.lt_one_iff.1 hk
    exact h
  · exact .ended (n := 0) Nat.one_pos (fun k hk => absurd hk (Nat.not_lt_zero k)) h

/-- A run of a machine that has come to its end comes to what a step does. -/
theorem performance_of_isTerminal (hm : m.state.isTerminal = true) (request : Execution) :
    m.Performance request (m.perform request).answer (m.perform request).machine := by
  have hlast : ¬ m.goesOn := by
    intro h
    rw [isTerminal_of_goesOn h] at hm
    cases hm
  have hignored : (m.perform request).answer = m.step.answer ∧
      (m.perform request).machine = m.step.machine := by
    cases request with
    | step => exact ⟨rfl, rfl⟩
    | run answers asked =>
      rw [perform, report_run_of_isTerminal hm, step, hm]
      exact ⟨rfl, rfl⟩
  rw [hignored.1, hignored.2]
  exact .ended (n := 0) (m.demand_pos request) (fun k hk => absurd hk (Nat.not_lt_zero k)) hlast

theorem performance_run (hm : m.state.isTerminal = false) (answers : Option (List Bool))
    (asked : Option Int) : m.Performance (.run answers asked)
      (m.run answers asked).report.answer (m.run answers asked).report.machine := by
  have hfollows := followsSteps_run hm (answers.getD []) asked
  rw [report_run]
  rcases Nat.lt_or_eq_of_le (m.advance_le (m.runLimit (answers.getD []) asked)) with hlt | heq
  · obtain ⟨hanswer, hmachine⟩ := hfollows.ended hlt
    rw [hanswer, hmachine, stepped_succ]
    exact .ended hlt (fun k hk => goesOn_of_lt_advance hk) (not_goesOn_stepped_advance hlt)
  · obtain ⟨hanswer, hmachine⟩ := hfollows.stopped heq
    rw [hanswer, hmachine]
    refine .rested fun k hk => ?_
    have hlt : k < m.advance (m.runLimit (answers.getD []) asked) := heq.symm ▸ hk
    exact goesOn_of_lt_advance hlt

/-- **Every request comes to the steps it asks for**, up to the first that does not go on. -/
theorem performance (m : Machine) (request : Execution) :
    m.Performance request (m.perform request).answer (m.perform request).machine := by
  cases hm : m.state.isTerminal with
  | true => exact performance_of_isTerminal hm request
  | false =>
    cases request with
    | step => exact m.performance_step
    | run answers asked => exact performance_run hm answers asked

/-- A request ends with the first of its steps that does not go on. -/
theorem perform_of_last {request : Execution} {n : Nat} (hn : n < m.demand request)
    (hbefore : ∀ k < n, (m.stepped k).goesOn) (hlast : ¬ (m.stepped n).goesOn) :
    (m.perform request).answer = (m.stepped n).step.answer ∧
      (m.perform request).machine = (m.stepped n).step.machine := by
  have hperformance := m.performance request
  generalize (m.perform request).answer = answer, (m.perform request).machine = machine
    at hperformance
  cases hperformance with
  | @ended k _ hgoes hstop =>
    rcases Nat.lt_trichotomy n k with hlt | rfl | hgt
    · exact absurd (hgoes n hlt) hlast
    · exact ⟨rfl, rfl⟩
    · exact absurd (hbefore k hgt) hstop
  | rested hgoes => exact absurd (hgoes n hn) hlast

/-- A request all of whose steps go on comes to rest after them. -/
theorem perform_of_goesOn {request : Execution}
    (h : ∀ k < m.demand request, (m.stepped k).goesOn) :
    (m.perform request).answer = .ok request.rest ∧
      (m.perform request).machine = (m.stepped (m.demand request)).inState request.rest := by
  have hperformance := m.performance request
  generalize (m.perform request).answer = answer, (m.perform request).machine = machine
    at hperformance
  cases hperformance with
  | ended hwithin _ hstop => exact absurd (h _ hwithin) hstop
  | rested => exact ⟨rfl, rfl⟩

/-- A request answers the state it leaves the machine in, which is none in which it executes
instructions, unless it ends in a numeral that is too long. -/
theorem answer_perform (m : Machine) (request : Execution) :
    ((m.perform request).answer = .ok (m.perform request).machine.state ∧
      (m.perform request).machine.state ∈ [.ready, .stopped, .halted, .faulted]) ∨
    ∃ error, (m.perform request).answer = .error error ∧
      (m.perform request).machine.state = .running := by
  have hperformance := m.performance request
  generalize (m.perform request).answer = answer, (m.perform request).machine = machine
    at hperformance
  cases hperformance with
  | @ended n _ _ hlast =>
    cases hterminal : (m.stepped n).state.isTerminal with
    | true =>
      rw [step, hterminal]
      refine Or.inl ⟨rfl, ?_⟩
      show (m.stepped n).state ∈ _
      rcases State.isTerminal_iff.1 hterminal with hstate | hstate
      · rw [hstate]
        simp
      · rw [hstate]
        simp
    | false =>
      rcases step_of_not_goesOn hterminal hlast with ⟨hanswer, hstate⟩ | ⟨hanswer, hstate⟩ |
        ⟨error, hanswer, hstate⟩
      · rw [hanswer, hstate]
        exact Or.inl ⟨rfl, by simp⟩
      · rw [hanswer, hstate]
        exact Or.inl ⟨rfl, by simp⟩
      · exact Or.inr ⟨error, hanswer, hstate⟩
  | rested => cases request <;> exact Or.inl ⟨rfl, by simp [inState, Execution.rest]⟩

/-! ### What requests keep -/

section Induction

variable {P : Machine → Prop}

theorem stepped_of_forall_step (hstep : ∀ m, P m → P m.step.machine) (hm : P m) (n : Nat) :
    P (m.stepped n) := by
  induction n with
  | zero => exact hm
  | succ n ih =>
    rw [stepped_succ]
    exact hstep _ ih

/-- What every step keeps, and being stopped does not harm, is kept by every request. -/
theorem perform_induction (hstep : ∀ m, P m → P m.step.machine)
    (hstop : ∀ m, P m → m.state = .ready → P (m.inState .stopped)) (hm : P m)
    (request : Execution) : P (m.perform request).machine := by
  have hperformance := m.performance request
  generalize (m.perform request).answer = answer, (m.perform request).machine = machine
    at hperformance
  cases hperformance with
  | ended _ _ _ => exact hstep _ (stepped_of_forall_step hstep hm _)
  | rested hbefore =>
    have hready := state_stepped_of_goesOn (m.demand_pos request) hbefore
    have hlast : P (m.stepped (m.demand request)) := stepped_of_forall_step hstep hm _
    cases request with
    | step =>
      rw [Execution.rest, inState_of_eq hready]
      exact hlast
    | run answers asked => exact hstop _ hlast hready

theorem after_of_forall_perform (hperform : ∀ m request, P m → P (m.perform request).machine)
    (hm : P m) (requests : List Execution) : P (m.after requests) := by
  induction requests generalizing m with
  | nil => exact hm
  | cons request requests ih => exact ih (hperform m request hm)

end Induction

/-- **A request ends in a numeral that is too long exactly if one of its steps does.** -/
theorem answer_perform_eq_error_iff {request : Execution} {error : Overlong} :
    (m.perform request).answer = .error error ↔ ∃ k < m.demand request,
      (∀ j < k, (m.stepped j).goesOn) ∧ (m.stepped k).step.answer = .error error := by
  have hperformance := m.performance request
  generalize (m.perform request).answer = answer, (m.perform request).machine = machine
    at hperformance
  have hlast : ∀ k, (m.stepped k).step.answer = .error error → ¬ (m.stepped k).goesOn := by
    intro k herror
    rw [goesOn_iff, herror]
    simp
  cases hperformance with
  | @ended n hn hbefore hstop =>
    refine ⟨fun h => ⟨n, hn, hbefore, h⟩, fun ⟨k, hk, hgoes, herror⟩ => ?_⟩
    -- both are the first step that does not go on
    rcases Nat.lt_trichotomy n k with hlt | rfl | hgt
    · exact absurd (hgoes n hlt) hstop
    · exact herror
    · exact absurd (hbefore k hgt) (hlast k herror)
  | rested hbefore =>
    constructor
    · intro h
      cases h
    · rintro ⟨k, hk, -, herror⟩
      exact absurd (hbefore k hk) (hlast k herror)

end Machine

end Accumulator
