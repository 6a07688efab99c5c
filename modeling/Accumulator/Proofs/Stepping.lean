import Accumulator.Proofs.Cycle

/-!
# Sequences of steps

`stepped m n` is the machine after `n` steps and `noted m n` what is noted in them.  A step goes on
if it leaves the machine ready for another one; `advance m limit` is how many of the next `limit`
steps do so before one does not.
-/

namespace Accumulator

namespace Machine

variable {m : Machine}

/-! ### Steps in a row -/

/-- The machine after so many steps. -/
def stepped (m : Machine) : Nat → Machine
  | 0 => m
  | n + 1 => m.step.machine.stepped n

/-- What is noted in so many steps. -/
def noted (m : Machine) : Nat → Array Event
  | 0 => #[]
  | n + 1 => m.step.events ++ m.step.machine.noted n

/-- Whether a step leaves the machine ready for another one. -/
def goesOn (m : Machine) : Bool :=
  match m.step.answer with
  | .ok .ready => true
  | _ => false

/-- How many of the next `limit` steps go on before one does not. -/
def advance (m : Machine) : Nat → Nat
  | 0 => 0
  | limit + 1 => if m.goesOn then m.step.machine.advance limit + 1 else 0

theorem stepped_add (m : Machine) (k n : Nat) : m.stepped (k + n) = (m.stepped k).stepped n := by
  induction k generalizing m with
  | zero => rw [Nat.zero_add]; rfl
  | succ k ih => rw [Nat.add_right_comm]; exact ih m.step.machine

theorem stepped_succ (m : Machine) (n : Nat) : m.stepped (n + 1) = (m.stepped n).step.machine :=
  m.stepped_add n 1

theorem noted_add (m : Machine) (k n : Nat) :
    m.noted (k + n) = m.noted k ++ (m.stepped k).noted n := by
  induction k generalizing m with
  | zero => rw [Nat.zero_add]; exact (Array.empty_append).symm
  | succ k ih =>
    rw [Nat.add_right_comm, noted, ih m.step.machine, noted, Array.append_assoc]
    rfl

theorem noted_succ (m : Machine) (n : Nat) :
    m.noted (n + 1) = m.noted n ++ (m.stepped n).step.events := by
  rw [noted_add, noted, noted, Array.append_empty]

theorem goesOn_iff : m.goesOn ↔ m.step.answer = .ok .ready := by
  unfold goesOn
  split
  · next h => simp [h]
  · next h => simpa using fun heq => h heq

theorem isTerminal_of_goesOn (h : m.goesOn) : m.state.isTerminal = false := by
  rw [goesOn_iff] at h
  cases hterminal : m.state.isTerminal with
  | false => rfl
  | true =>
    rw [step, hterminal] at h
    have hstate : m.state = .ready := Except.ok.inj h
    rw [hstate] at hterminal
    cases hterminal

/-- A step that goes on leaves the machine ready, after a cycle that goes on. -/
theorem step_of_goesOn (h : m.goesOn) :
    m.cycle.answer = .ok .goesOn ∧ m.step.machine = m.cycle.machine.inState .ready ∧
      m.step.events = m.cycle.events := by
  have hterminal := isTerminal_of_goesOn h
  rw [goesOn_iff] at h
  rcases step_cases hterminal with ⟨hcycle, -, hmachine⟩ | ⟨-, hstep, -⟩ | ⟨_, -, hstep, -⟩ |
    ⟨_, -, hstep, -⟩
  · refine ⟨hcycle, hmachine, ?_⟩
    rw [step_eq_settle hterminal]
    simp [settle, hcycle]
  · rw [hstep] at h; cases h
  · rw [hstep] at h; cases h
  · rw [hstep] at h; cases h

/-- A step that goes on executes the instruction at the program counter. -/
theorem execute_of_goesOn (h : m.goesOn) :
    ∃ i, m.fetch = .ok i ∧ m.toCore.execute i = .ok m.step.machine.toCore := by
  obtain ⟨hanswer, hmachine, -⟩ := step_of_goesOn h
  rw [hmachine, toCore_inState]
  have hcycle := m.cycleOutcome
  generalize m.cycle = report at hanswer hcycle
  cases hcycle with
  | unfetched => cases hanswer
  | untraced => cases hanswer
  | refused => cases hanswer
  | executed hfetch _ hexecute => exact ⟨_, hfetch, hexecute⟩

theorem answer_cycle_of_not_goesOn (hm : m.state.isTerminal = false) (h : ¬ m.goesOn) :
    m.cycle.answer ≠ .ok .goesOn := by
  intro hanswer
  rcases step_cases hm with ⟨-, hstep, -⟩ | ⟨hother, -⟩ | ⟨_, hother, -⟩ | ⟨_, hother, -⟩
  · exact h (goesOn_iff.2 hstep)
  · rw [hother] at hanswer; cases hanswer
  · rw [hother] at hanswer; cases hanswer
  · rw [hother] at hanswer; cases hanswer

theorem start_step_of_goesOn (h : m.goesOn) : m.step.machine.start = m.cycle.machine.start := by
  rw [(step_of_goesOn h).2.1, start_inState]

theorem state_step_of_goesOn (h : m.goesOn) : m.step.machine.state = .ready := by
  rw [(step_of_goesOn h).2.1, state_inState]

/-- Steps that go on, if there are any, leave the machine ready. -/
theorem state_stepped_of_goesOn {n : Nat} (hn : 0 < n) (h : ∀ k < n, (m.stepped k).goesOn) :
    (m.stepped n).state = .ready := by
  obtain ⟨n, rfl⟩ := Nat.exists_eq_add_one.2 hn
  rw [stepped_succ]
  exact state_step_of_goesOn (h n (Nat.lt_succ_self n))

/-- A step that does not go on ends in a halt, a fault or a numeral that is too long. -/
theorem step_of_not_goesOn (hm : m.state.isTerminal = false) (h : ¬ m.goesOn) :
    (m.step.answer = .ok .halted ∧ m.step.machine.state = .halted) ∨
    (m.step.answer = .ok .faulted ∧ m.step.machine.state = .faulted) ∨
    ∃ error, m.step.answer = .error error ∧ m.step.machine.state = .running := by
  rcases step_cases hm with ⟨-, hanswer, -⟩ | ⟨-, hanswer, hmachine⟩ |
    ⟨fault, -, hanswer, hmachine⟩ | ⟨error, -, hanswer, hmachine⟩
  · exact absurd (goesOn_iff.2 hanswer) h
  · exact Or.inl ⟨hanswer, by rw [hmachine]; rfl⟩
  · exact Or.inr (Or.inl ⟨hanswer, by rw [hmachine]; rfl⟩)
  · exact Or.inr (Or.inr ⟨error, hanswer, by rw [hmachine]; rfl⟩)

/-! ### How far steps go on -/

theorem advance_succ_of_goesOn (h : m.goesOn) (limit : Nat) :
    m.advance (limit + 1) = m.step.machine.advance limit + 1 := by
  rw [advance, if_pos h]

theorem advance_succ_of_not_goesOn (h : ¬ m.goesOn) (limit : Nat) : m.advance (limit + 1) = 0 := by
  rw [advance, if_neg h]

theorem advance_le (m : Machine) (limit : Nat) : m.advance limit ≤ limit := by
  induction limit generalizing m with
  | zero => exact Nat.le_refl 0
  | succ limit ih =>
    by_cases h : m.goesOn
    · rw [advance_succ_of_goesOn h]
      exact Nat.succ_le_succ (ih _)
    · rw [advance_succ_of_not_goesOn h]
      exact Nat.zero_le _

/-- The steps counted by `advance` go on. -/
theorem goesOn_of_lt_advance {limit k : Nat} (h : k < m.advance limit) : (m.stepped k).goesOn := by
  induction limit generalizing m k with
  | zero => exact absurd h (Nat.not_lt_zero k)
  | succ limit ih =>
    by_cases hm : m.goesOn
    · rw [advance_succ_of_goesOn hm] at h
      cases k with
      | zero => exact hm
      | succ k => exact ih (m := m.step.machine) (Nat.lt_of_succ_lt_succ h)
    · rw [advance_succ_of_not_goesOn hm] at h
      exact absurd h (Nat.not_lt_zero k)

/-- The step after those counted by `advance`, if it is within the limit, does not go on. -/
theorem not_goesOn_stepped_advance {limit : Nat} (h : m.advance limit < limit) :
    ¬ (m.stepped (m.advance limit)).goesOn := by
  induction limit generalizing m with
  | zero => exact absurd h (Nat.not_lt_zero _)
  | succ limit ih =>
    by_cases hm : m.goesOn
    · rw [advance_succ_of_goesOn hm] at h ⊢
      exact ih (Nat.lt_of_succ_lt_succ h)
    · rw [advance_succ_of_not_goesOn hm]
      exact hm

theorem advance_add_of_eq {size : Nat} (h : m.advance size = size) (limit : Nat) :
    m.advance (size + limit) = size + (m.stepped size).advance limit := by
  induction size generalizing m with
  | zero => rw [Nat.zero_add, Nat.zero_add]; rfl
  | succ size ih =>
    by_cases hm : m.goesOn
    · rw [advance_succ_of_goesOn hm] at h
      rw [Nat.add_right_comm, advance_succ_of_goesOn hm, ih (Nat.succ.inj h), Nat.add_right_comm]
      rfl
    · rw [advance_succ_of_not_goesOn hm] at h
      cases h

theorem advance_add_of_lt {size : Nat} (h : m.advance size < size) (limit : Nat) :
    m.advance (size + limit) = m.advance size := by
  induction size generalizing m with
  | zero => exact absurd h (Nat.not_lt_zero _)
  | succ size ih =>
    rw [Nat.add_right_comm]
    by_cases hm : m.goesOn
    · rw [advance_succ_of_goesOn hm] at h
      rw [advance_succ_of_goesOn hm, advance_succ_of_goesOn hm, ih (Nat.lt_of_succ_lt_succ h)]
    · rw [advance_succ_of_not_goesOn hm, advance_succ_of_not_goesOn hm]

theorem isTerminal_stepped_of_le {limit k : Nat} (hm : m.state.isTerminal = false)
    (h : k ≤ m.advance limit) : (m.stepped k).state.isTerminal = false := by
  cases k with
  | zero => exact hm
  | succ k => rw [stepped_succ, state_step_of_goesOn (goesOn_of_lt_advance h)]; rfl

end Machine

end Accumulator
