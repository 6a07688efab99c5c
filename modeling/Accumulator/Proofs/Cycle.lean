import Accumulator.Machine.Run

/-!
# The instruction cycle

A cycle has four outcomes: the instruction cannot be fetched, its trace line cannot be written, it
is refused, or it is executed.  `cycleOutcome` says what the machine is in each of them, and every
other statement about a cycle is a case analysis on it.

A cycle neither reads nor changes the state of the machine (`cycle_inState`), so `step` is one cycle
of the machine in any state that is not terminal (`step_eq_settle`).  A cycle that fails leaves the
core as it was (`toCore_cycle_of_error`).
-/

namespace Accumulator

/-- A program has ended when it has halted or met a fault. -/
theorem State.isTerminal_iff {s : State} : s.isTerminal = true ↔ s = .halted ∨ s = .faulted := by
  cases s <;> simp [isTerminal]

namespace Machine

variable {m : Machine}

/-! ### States -/

/-- The machine in another state. -/
def inState (m : Machine) (state : State) : Machine := { m with state }

@[simp] theorem toCore_inState (m : Machine) (s : State) : (m.inState s).toCore = m.toCore := rfl

@[simp] theorem state_inState (m : Machine) (s : State) : (m.inState s).state = s := rfl

theorem inState_of_eq {s : State} (h : m.state = s) : m.inState s = m := by
  rw [← h]
  rfl

@[simp] theorem start_inState (m : Machine) (s : State) : (m.inState s).start = m.start := rfl

@[simp] theorem toCore_record (m : Machine) (line? : Option String) :
    (m.record line?).toCore = m.toCore := by
  cases line? <;> rfl

theorem record_inState (m : Machine) (s : State) (line? : Option String) :
    (m.inState s).record line? = (m.record line?).inState s := by
  cases line? <;> rfl

theorem traceLine?_of_untraced (h : m.tracing = false) (i : Instruction) :
    m.traceLine? i = .ok none := by
  rw [traceLine?, h]
  rfl

/-! ### Outcomes -/

/-- What a cycle of a machine comes to. -/
inductive CycleOutcome (m : Machine) : Report Failure Pace → Prop
  /-- There is no instruction at the program counter. -/
  | unfetched {failure : Failure} (fetched : m.fetch = .error failure) :
      CycleOutcome m ⟨m, .error failure, #[]⟩
  /-- The trace line of the instruction cannot be written. -/
  | untraced {i : Instruction} {error : Overlong} (fetched : m.fetch = .ok i)
      (traced : m.traceLine? i = .error error) :
      CycleOutcome m ⟨m, .error (.overlong error), #[]⟩
  /-- The instruction fails. -/
  | refused {i : Instruction} {line? : Option String} {failure : Failure}
      (fetched : m.fetch = .ok i) (traced : m.traceLine? i = .ok line?)
      (refused : m.toCore.execute i = .error failure) :
      CycleOutcome m ⟨m.record line?, .error failure, #[.decoded m.registers.programCounter i]⟩
  /-- The instruction is executed. -/
  | executed {i : Instruction} {line? : Option String} {core : Core}
      (fetched : m.fetch = .ok i) (traced : m.traceLine? i = .ok line?)
      (executed : m.toCore.execute i = .ok core) :
      CycleOutcome m ⟨{ m.record line? with toCore := core },
        .ok (if i.halts then .ends else .goesOn),
        #[.decoded m.registers.programCounter i] ++ m.toCore.sideNotes i⟩

/-- Every cycle has one of the outcomes. -/
theorem cycleOutcome (m : Machine) : CycleOutcome m m.cycle := by
  unfold cycle
  cases hfetch : m.fetch with
  | error failure => exact .unfetched hfetch
  | ok i =>
    dsimp only
    cases htrace : m.traceLine? i with
    | error error => exact .untraced hfetch htrace
    | ok line? =>
      dsimp only
      rw [toCore_record]
      cases hexecute : m.toCore.execute i with
      | error failure => exact .refused hfetch htrace hexecute
      | ok core => exact .executed hfetch htrace hexecute

/-- A cycle neither reads nor changes the state. -/
theorem cycle_inState (m : Machine) (s : State) :
    (m.inState s).cycle = { m.cycle with machine := m.cycle.machine.inState s } := by
  -- fetching, tracing and executing read the core and the settings only
  have hfetch : (m.inState s).toCore.fetch = m.toCore.fetch := rfl
  have htrace : ∀ i, (m.inState s).traceLine? i = m.traceLine? i := fun _ => rfl
  unfold cycle
  rw [hfetch]
  cases m.toCore.fetch with
  | error failure => rfl
  | ok i =>
    dsimp only
    rw [htrace]
    cases m.traceLine? i with
    | error error => rfl
    | ok line? =>
      dsimp only
      rw [record_inState, toCore_inState]
      cases (m.record line?).toCore.execute i with
      | error failure => rfl
      | ok core => rfl

theorem cycle_start (m : Machine) :
    m.start.cycle = { m.cycle with machine := m.cycle.machine.start } :=
  m.cycle_inState .running

/-- What is around the core stays as it is, but for the trace. -/
theorem frame_cycle (m : Machine) :
    m.cycle.machine = { m with
      toCore := m.cycle.machine.toCore
      trace := m.cycle.machine.trace } := by
  have h := m.cycleOutcome
  generalize m.cycle = report at h
  cases h with
  | unfetched => rfl
  | untraced => rfl
  | @refused _ line? => cases line? <;> rfl
  | @executed _ line? => cases line? <;> rfl

theorem settings_cycle (m : Machine) :
    m.cycle.machine.batchSize = m.batchSize ∧ m.cycle.machine.program = m.program ∧
      m.cycle.machine.tracing = m.tracing := by
  rw [frame_cycle]
  exact ⟨rfl, rfl, rfl⟩

/-- A cycle adds at most one line to the trace. -/
theorem trace_cycle (m : Machine) :
    m.cycle.machine.trace = m.trace ∨ ∃ line, m.cycle.machine.trace = m.trace.push line := by
  have h := m.cycleOutcome
  generalize m.cycle = report at h
  have hrecord : ∀ line?, (m.record line?).trace = m.trace ∨
      ∃ line, (m.record line?).trace = m.trace.push line := by
    intro line?
    cases line? with
    | none => exact Or.inl rfl
    | some line => exact Or.inr ⟨line, rfl⟩
  cases h with
  | unfetched => exact Or.inl rfl
  | untraced => exact Or.inl rfl
  | @refused _ line? => exact hrecord line?
  | @executed _ line? => exact hrecord line?

/-- **A cycle that fails leaves the core as it was.** -/
theorem toCore_cycle_of_error {failure : Failure} (h : m.cycle.answer = .error failure) :
    m.cycle.machine.toCore = m.toCore := by
  have hcycle := m.cycleOutcome
  generalize m.cycle = report at h hcycle
  cases hcycle with
  | unfetched => rfl
  | untraced => rfl
  | @refused _ line? => exact toCore_record m line?
  | executed => cases h

/-! ### Steps -/

/-- A machine that has not come to its end executes one cycle. -/
theorem step_eq_settle (h : m.state.isTerminal = false) :
    m.step = settle .ready { m.cycle with machine := m.cycle.machine.start } := by
  rw [step, h, cycle_start]
  rfl

/-- A machine that has come to its end is left alone. -/
theorem machine_step_of_isTerminal (h : m.state.isTerminal = true) : m.step.machine = m := by
  rw [step, h]
  rfl

/-- A step does the same whatever the state, if it is not terminal. -/
theorem step_inState {s : State} (hm : m.state.isTerminal = false) (hs : s.isTerminal = false) :
    (m.inState s).step = m.step := by
  rw [step, step, state_inState, hm, hs]
  rfl

/-- The four ends of a step. -/
theorem step_cases (h : m.state.isTerminal = false) :
    (m.cycle.answer = .ok .goesOn ∧ m.step.answer = .ok .ready ∧
      m.step.machine = m.cycle.machine.inState .ready) ∨
    (m.cycle.answer = .ok .ends ∧ m.step.answer = .ok .halted ∧
      m.step.machine = m.cycle.machine.inState .halted) ∨
    (∃ fault, m.cycle.answer = .error (.fault fault) ∧ m.step.answer = .ok .faulted ∧
      m.step.machine = { m.cycle.machine.inState .faulted with fault := some fault }) ∨
    (∃ error, m.cycle.answer = .error (.overlong error) ∧ m.step.answer = .error error ∧
      m.step.machine = m.cycle.machine.inState .running) := by
  rw [step_eq_settle h]
  unfold settle
  dsimp only
  cases hanswer : m.cycle.answer with
  | ok pace =>
    cases pace with
    | goesOn => exact Or.inl ⟨rfl, rfl, rfl⟩
    | ends => exact Or.inr (Or.inl ⟨rfl, rfl, rfl⟩)
  | error failure =>
    cases failure with
    | fault fault => exact Or.inr (Or.inr (Or.inl ⟨fault, rfl, rfl, rfl⟩))
    | overlong error => exact Or.inr (Or.inr (Or.inr ⟨error, rfl, rfl, rfl⟩))

/-- A step changes neither the settings of a machine nor its program. -/
theorem settings_step (m : Machine) :
    m.step.machine.batchSize = m.batchSize ∧ m.step.machine.program = m.program ∧
      m.step.machine.tracing = m.tracing := by
  cases hm : m.state.isTerminal with
  | true =>
    rw [machine_step_of_isTerminal hm]
    exact ⟨rfl, rfl, rfl⟩
  | false =>
    have hcycle := m.settings_cycle
    rcases step_cases hm with ⟨-, -, h⟩ | ⟨-, -, h⟩ | ⟨_, -, -, h⟩ | ⟨_, -, -, h⟩
    all_goals rw [h]; exact hcycle

/-- A step changes the core only by an instruction that it executes. -/
theorem toCore_step (m : Machine) : m.step.machine.toCore = m.toCore ∨
    ∃ i, m.fetch = .ok i ∧ m.toCore.execute i = .ok m.step.machine.toCore := by
  cases hm : m.state.isTerminal with
  | true => exact Or.inl (congrArg toCore (machine_step_of_isTerminal hm))
  | false =>
    have hcore : m.step.machine.toCore = m.cycle.machine.toCore := by
      rcases step_cases hm with ⟨-, -, h⟩ | ⟨-, -, h⟩ | ⟨_, -, -, h⟩ | ⟨_, -, -, h⟩
      all_goals rw [h]; rfl
    have hcycle := m.cycleOutcome
    rw [hcore]
    generalize m.cycle = report at hcycle
    cases hcycle with
    | unfetched => exact Or.inl rfl
    | untraced => exact Or.inl rfl
    | @refused _ line? => exact Or.inl (toCore_record m line?)
    | executed hfetch _ hexecute => exact Or.inr ⟨_, hfetch, hexecute⟩

/-! ### Notes -/

/-- What can be noted in a step. -/
inductive StepNote (m : Machine) : Event → Prop
  /-- The instruction at the program counter was decoded. -/
  | decoded {i : Instruction} (fetched : m.fetch = .ok i) :
      StepNote m (.decoded m.registers.programCounter i)
  | rebound (name : String) (old new : Int) : StepNote m (.rebound name old new)
  | halted (pc executed : Int) : StepNote m (.halted pc executed)
  | faulted (pc : Int) (fault : Fault) : StepNote m (.faulted pc fault)
  | ignored (request state : String) : StepNote m (.ignored request state)

theorem stepNote_of_mem_cycle {event : Event} (h : event ∈ m.cycle.events) : StepNote m event := by
  have hcycle := m.cycleOutcome
  generalize m.cycle = report at h hcycle
  cases hcycle with
  | unfetched => simp at h
  | untraced => simp at h
  | refused hfetch =>
    rw [Array.mem_singleton.1 h]
    exact .decoded hfetch
  | @executed i _ _ hfetch =>
    rcases Array.mem_append.1 h with h | h
    · rw [Array.mem_singleton.1 h]
      exact .decoded hfetch
    · unfold Core.sideNotes at h
      split at h
      · split at h
        · simp at h
        · rw [Array.mem_singleton.1 h]
          exact .rebound _ _ _
      · simp at h

/-- All that is noted in a step. -/
theorem stepNote {event : Event} (h : event ∈ m.step.events) : StepNote m event := by
  cases hm : m.state.isTerminal with
  | true =>
    rw [step, hm] at h
    rw [Array.mem_singleton.1 h]
    exact .ignored _ _
  | false =>
    rw [step_eq_settle hm] at h
    unfold settle at h
    dsimp only at h
    split at h
    · exact stepNote_of_mem_cycle h
    · rcases Array.mem_push.1 h with h | rfl
      · exact stepNote_of_mem_cycle h
      · exact .halted _ _
    · rcases Array.mem_push.1 h with h | rfl
      · exact stepNote_of_mem_cycle h
      · exact .faulted _ _
    · exact stepNote_of_mem_cycle h

end Machine

end Accumulator
