import Accumulator.Proofs.Stepping

/-!
# Runs as sequences of steps

A batch of `size` cycles is `size` steps if all of them go on (`batch_of_advance_eq`), and otherwise
the steps up to the first that does not (`batch_of_advance_lt`).  A run is a sequence of such
batches, so all of it but the state at the end and the notes on batches is what the steps come to
(`run_follows_steps`).

The induction is on the answers: each yes takes a batch off the limit, and what follows is a run of
the machine after that batch.
-/

namespace Accumulator

/-- Whether a note is one that a run makes on its batches. -/
def Event.isOfRun : Event → Bool
  | .batchDone _ _ | .runStopped => true
  | _ => false

/-- Notes less those that a run makes on its batches. -/
def ofSteps (events : Array Event) : Array Event := events.filter fun event => !event.isOfRun

theorem ofSteps_append (events later : Array Event) :
    ofSteps (events ++ later) = ofSteps events ++ ofSteps later :=
  Array.filter_append Array.size_append

theorem ofSteps_push_batchDone (events : Array Event) (size : Nat) (pc : Int) :
    ofSteps (events.push (.batchDone size pc)) = ofSteps events := by
  rw [Array.push_eq_append, ofSteps_append]
  exact Array.append_empty

namespace Machine

variable {m : Machine}

/-! ### Batches -/

/-- Cycles that all go on are as many steps. -/
theorem cycles_of_advance_eq {size : Nat} (h : m.advance size = size) (earlier : Array Event) :
    m.start.cycles earlier size =
      ⟨(m.stepped size).start, .ok .goesOn, earlier ++ m.noted size⟩ := by
  induction size generalizing m earlier with
  | zero => rw [cycles, noted, Array.append_empty]; rfl
  | succ size ih =>
    by_cases hm : m.goesOn
    · rw [advance_succ_of_goesOn hm] at h
      obtain ⟨hanswer, -, hevents⟩ := step_of_goesOn hm
      rw [cycles, cycle_start]
      simp only [hanswer]
      rw [← start_step_of_goesOn hm, ih (Nat.succ.inj h), noted, hevents, Array.append_assoc]
      rfl
    · rw [advance_succ_of_not_goesOn hm] at h
      cases h

/-- Cycles of which one does not go on are the steps before it and that cycle. -/
theorem cycles_of_advance_lt {size : Nat} (hm : m.state.isTerminal = false)
    (h : m.advance size < size) (earlier : Array Event) :
    m.start.cycles earlier size =
      { (m.stepped (m.advance size)).start.cycle with
        events := earlier ++ m.noted (m.advance size) ++
          (m.stepped (m.advance size)).start.cycle.events } := by
  induction size generalizing m earlier with
  | zero => exact absurd h (Nat.not_lt_zero _)
  | succ size ih =>
    rw [cycles]
    by_cases hgoes : m.goesOn
    · rw [advance_succ_of_goesOn hgoes] at h ⊢
      -- the first cycle is the first step, and the others are those of the machine after it
      obtain ⟨hanswer, -, hevents⟩ := step_of_goesOn hgoes
      have hready : m.step.machine.state.isTerminal = false := by
        rw [state_step_of_goesOn hgoes]
        rfl
      rw [cycle_start]
      simp only [hanswer]
      rw [← start_step_of_goesOn hgoes, ih hready (Nat.lt_of_succ_lt_succ h), noted, hevents]
      simp only [Array.append_assoc]
      rfl
    · rw [advance_succ_of_not_goesOn hgoes]
      have hends := answer_cycle_of_not_goesOn hm hgoes
      rw [noted, Array.append_empty, stepped, cycle_start]
      dsimp only
      split
      · next hanswer => exact absurd hanswer hends
      · rfl

/-- Cycles that end with one that does not go on come to rest in the state that its end calls
for. -/
theorem settle_of_ne {rest : State} {report : Report Failure Pace}
    (h : report.answer ≠ .ok .goesOn) (earlier : Array Event) :
    settle rest { report with events := earlier ++ report.events } =
      { settle .ready report with events := earlier ++ (settle .ready report).events } := by
  unfold settle
  dsimp only
  cases hanswer : report.answer with
  | ok pace =>
    cases pace with
    | goesOn => exact absurd hanswer h
    | ends => simp only [Array.push_eq_append, Array.append_assoc]
  | error failure =>
    cases failure with
    | fault fault => simp only [Array.push_eq_append, Array.append_assoc]
    | overlong error => rfl

theorem answer_settle_ready_ne (report : Report Failure Pace) :
    (settle .ready report).answer ≠ .ok .awaitingContinue := by
  unfold settle
  dsimp only
  cases report.answer with
  | ok pace => cases pace <;> simp
  | error failure => cases failure <;> simp

/-- A batch all of whose cycles go on is as many steps. -/
theorem batch_of_advance_eq {size : Nat} (h : m.advance size = size) :
    m.batch size = ⟨(m.stepped size).inState .awaitingContinue, .ok .awaitingContinue,
      (m.noted size).push (.batchDone size (m.stepped size).registers.programCounter)⟩ := by
  rw [batch, cycles_of_advance_eq h, Array.empty_append]
  rfl

/-- A batch of which a cycle does not go on is the steps up to that one. -/
theorem batch_of_advance_lt {size : Nat} (hm : m.state.isTerminal = false)
    (h : m.advance size < size) :
    m.batch size = ⟨m.stepped (m.advance size + 1), (m.stepped (m.advance size)).step.answer,
      m.noted (m.advance size + 1)⟩ := by
  have hlast := isTerminal_stepped_of_le hm (Nat.le_refl (m.advance size))
  have hends : (m.stepped (m.advance size)).start.cycle.answer ≠ .ok .goesOn := by
    rw [cycle_start]
    exact answer_cycle_of_not_goesOn hlast (not_goesOn_stepped_advance h)
  have hne := answer_settle_ready_ne (m.stepped (m.advance size)).start.cycle
  rw [stepped_succ, noted_succ, step_eq_settle hlast, ← cycle_start, batch,
    cycles_of_advance_lt hm h, Array.empty_append, settle_of_ne hends]
  dsimp only
  split
  · next hanswer => exact absurd hanswer hne
  · rfl

/-- The state in which a machine begins a batch does not matter. -/
theorem batch_inState (m : Machine) (s : State) (size : Nat) :
    (m.inState s).batch size = m.batch size := by
  rw [batch, start_inState]
  rfl

theorem batchSize_cycles (m : Machine) (earlier : Array Event) (count : Nat) :
    (m.cycles earlier count).machine.batchSize = m.batchSize := by
  induction count generalizing m earlier with
  | zero => rfl
  | succ count ih =>
    have hcycle := m.settings_cycle.1
    rw [cycles]
    split
    · rw [ih, hcycle]
    · exact hcycle

theorem batchSize_settle (rest : State) (report : Report Failure Pace) :
    (settle rest report).machine.batchSize = report.machine.batchSize := by
  unfold settle
  dsimp only
  split <;> rfl

/-- A batch does not change the batch size of the machine. -/
theorem batchSize_batch (m : Machine) (size : Nat) :
    (m.batch size).machine.batchSize = m.batchSize := by
  have hsettled := batchSize_settle .awaitingContinue (m.start.cycles #[] size)
  have hcycles := m.start.batchSize_cycles #[] size
  unfold batch
  dsimp only
  split
  · exact hsettled.trans hcycles
  · exact hsettled.trans hcycles

/-! ### What is shown and noted -/

/-- What is shown at the ends of so many batches of `size` steps. -/
def offered (m : Machine) (size count : Nat) : Array Snapshot :=
  ((List.range count).map fun j =>
    ((m.stepped ((j + 1) * size)).inState .awaitingContinue).snapshot).toArray

theorem offered_succ (m : Machine) (size count : Nat) :
    m.offered size (count + 1) =
      #[((m.stepped size).inState .awaitingContinue).snapshot] ++
        (m.stepped size).offered size count := by
  have hlater : ∀ j, (j + 1 + 1) * size = size + (j + 1) * size := fun j => by
    rw [Nat.succ_mul, Nat.add_comm]
  simp only [offered, List.range_succ_eq_map, List.map_cons, List.map_map, Function.comp_def,
    Nat.succ_eq_add_one, hlater, stepped_add, Nat.zero_add, Nat.one_mul]
  simp

theorem ofSteps_noted (m : Machine) (n : Nat) : ofSteps (m.noted n) = m.noted n := by
  induction n generalizing m with
  | zero => rfl
  | succ n ih =>
    have hstep : ofSteps m.step.events = m.step.events := by
      rw [ofSteps, Array.filter_eq_self]
      intro event hevent
      cases stepNote hevent <;> rfl
    rw [noted, ofSteps_append, hstep, ih]

/-! ### Runs -/

theorem continueRun_of_ne {size : Nat} {report : Report Overlong State}
    (h : report.answer ≠ .ok .awaitingContinue) (shown : Array Snapshot) (answers : List Bool)
    {silence : Silence} :
    continueRun size report shown answers silence = ⟨report, shown⟩ := by
  unfold continueRun
  split
  · next hanswer => exact absurd hanswer h
  · rfl

/-- What a run adds to notes and to snapshots shown before. -/
theorem continueRun_append (size : Nat) (report : Report Overlong State) (answers : List Bool)
    (earlier : Array Event) (shown : Array Snapshot) :
    continueRun size { report with events := earlier ++ report.events } shown answers =
      let run := continueRun size report #[] answers
      ⟨{ run.report with events := earlier ++ run.report.events }, shown ++ run.shown⟩ := by
  induction answers generalizing report earlier shown with
  | nil =>
    unfold continueRun
    dsimp only
    split
    · simp [declineRun]
    · simp
  | cons answer answers ih =>
    unfold continueRun
    dsimp only
    split
    · cases answer with
      | true =>
        dsimp only
        rw [ih _ (earlier ++ report.events), ih _ report.events]
        simp
      | false => simp [declineRun]
    · simp

/-- A run that has an answer but no yes to its question is stopped. -/
theorem continueRun_of_stopped (size : Nat) {report : Report Overlong State}
    (h : report.answer = .ok .awaitingContinue) {answers : List Bool}
    (hanswers : answers.head? ≠ some true) :
    let run := continueRun size report #[] answers
    run.report.machine = report.machine.stopRun.machine ∧ run.report.answer = .ok .stopped ∧
      run.shown = #[report.machine.snapshot] := by
  unfold continueRun
  rw [h]
  dsimp only
  split
  · exact absurd rfl hanswers
  · exact ⟨rfl, rfl, rfl⟩
  · exact ⟨rfl, rfl, rfl⟩

/-- A run that is told to go on does another batch. -/
theorem continueRun_of_continued (size : Nat) {report : Report Overlong State}
    (h : report.answer = .ok .awaitingContinue) (answers : List Bool) :
    let run := continueRun size report #[] (true :: answers)
    let later := continueRun size (report.machine.batch size) #[] answers
    run.report.machine = later.report.machine ∧ run.report.answer = later.report.answer ∧
      run.shown = #[report.machine.snapshot] ++ later.shown := by
  intro run later
  have hrun : run = ⟨{ later.report with events := report.events ++ later.report.events },
      #[report.machine.snapshot] ++ later.shown⟩ := by
    show continueRun size report #[] (true :: answers) = _
    rw [continueRun, h]
    dsimp only
    rw [continueRun_append]
    rfl
  rw [hrun]
  exact ⟨rfl, rfl, rfl⟩

/-- Answers behind those that a run takes do not change what it shows. -/
theorem shown_continueRun_append {size : Nat} {answers : List Bool} (more : List Bool) :
    ∀ {report : Report Overlong State},
      (continueRun size report #[] answers).shown.size ≤ answers.length →
      (continueRun size report #[] (answers ++ more)).shown =
        (continueRun size report #[] answers).shown := by
  induction answers with
  | nil =>
    intro report h
    by_cases hasked : report.answer = .ok .awaitingContinue
    · rw [(continueRun_of_stopped size hasked (by simp)).2.2] at h
      cases h
    · rw [continueRun_of_ne hasked, continueRun_of_ne hasked]
  | cons answer answers ih =>
    intro report h
    by_cases hasked : report.answer = .ok .awaitingContinue
    · cases answer with
      | false =>
        rw [(continueRun_of_stopped size hasked (by simp)).2.2,
          (continueRun_of_stopped size hasked (by simp)).2.2]
      | true =>
        have hshown := (continueRun_of_continued size hasked answers).2.2
        rw [hshown, Array.size_append, List.length_cons] at h
        have hlater : (continueRun size (report.machine.batch size) #[] answers).shown.size ≤
            answers.length := by
          simp at h
          omega
        rw [List.cons_append, (continueRun_of_continued size hasked (answers ++ more)).2.2,
          ih hlater, hshown]
    · rw [continueRun_of_ne hasked, continueRun_of_ne hasked]

/-- What a run of at most `limit` steps in batches of `size` comes to. -/
structure FollowsSteps (m : Machine) (size limit : Nat) (run : Run) : Prop where
  /-- If all steps go on, the run is stopped after them. -/
  stopped : m.advance limit = limit → run.report.answer = .ok .stopped ∧
    run.report.machine = (m.stepped limit).inState .stopped
  /-- Otherwise it ends as the first step does that does not go on. -/
  ended : m.advance limit < limit →
    run.report.answer = (m.stepped (m.advance limit)).step.answer ∧
      run.report.machine = m.stepped (m.advance limit + 1)
  shown : run.shown = m.offered size (m.advance limit / size)
  noted : ofSteps run.report.events = m.noted (min (m.advance limit + 1) limit)

/-- Either way it leaves the machine as the steps that were performed do, but for its state. -/
theorem FollowsSteps.machine {size limit : Nat} {run : Run} (h : FollowsSteps m size limit run) :
    run.report.machine =
      (m.stepped (min (m.advance limit + 1) limit)).inState run.report.machine.state := by
  rcases Nat.lt_or_eq_of_le (m.advance_le limit) with hlt | heq
  · rw [Nat.min_eq_left hlt, (h.ended hlt).2]
    rfl
  · rw [Nat.min_eq_right (by omega), (h.stopped heq).2]
    rfl

theorem answer_step_ne (m : Machine) (hm : m.state.isTerminal = false) :
    m.step.answer ≠ .ok .awaitingContinue := by
  rw [step_eq_settle hm]
  exact answer_settle_ready_ne _

/-- A run whose first batch ends it. -/
theorem followsSteps_of_advance_lt {size : Nat} (hm : m.state.isTerminal = false)
    (h : m.advance size < size) (rest : Nat) (answers : List Bool) :
    FollowsSteps m size (size + rest) (continueRun size (m.batch size) #[] answers) := by
  have hlast := isTerminal_stepped_of_le hm (Nat.le_refl (m.advance size))
  have hne : (m.batch size).answer ≠ .ok .awaitingContinue := by
    rw [batch_of_advance_lt hm h]
    exact answer_step_ne _ hlast
  have hadvance := advance_add_of_lt h rest
  rw [continueRun_of_ne hne, batch_of_advance_lt hm h]
  constructor
  · intro hall
    omega
  · intro _
    rw [hadvance]
    exact ⟨rfl, rfl⟩
  · rw [hadvance, Nat.div_eq_of_lt h]
    rfl
  · rw [hadvance, Nat.min_eq_left (by omega)]
    exact ofSteps_noted m _

/-- A run that is stopped after its first batch. -/
theorem followsSteps_of_stopped {size : Nat} (hsize : 0 < size) (h : m.advance size = size)
    {answers : List Bool} (hanswers : answers.head? ≠ some true) :
    FollowsSteps m size size (continueRun size (m.batch size) #[] answers) := by
  have hrun : continueRun size (m.batch size) #[] answers =
      ⟨{ (m.stepped size).stopRun with
          events := (m.batch size).events ++ (m.stepped size).stopRun.events },
        m.offered size 1⟩ := by
    rw [batch_of_advance_eq h]
    unfold continueRun
    dsimp only
    split
    · next heq => exact absurd rfl hanswers
    · simp [declineRun, offered, stopRun, inState]
    · simp [declineRun, offered, stopRun, inState]
  rw [hrun, batch_of_advance_eq h]
  constructor
  · intro _
    exact ⟨rfl, rfl⟩
  · intro hlt
    omega
  · rw [h, Nat.div_self hsize]
  · rw [h, Nat.min_eq_right (by omega)]
    dsimp only
    rw [ofSteps_append, ofSteps_push_batchDone, ofSteps_noted]
    exact Array.append_empty

/-- A run that goes on after its first batch. -/
theorem FollowsSteps.cons {size limit : Nat} (hsize : 0 < size) (h : m.advance size = size)
    {answers : List Bool} (hrest : FollowsSteps (m.stepped size) size limit
      (continueRun size ((m.stepped size).batch size) #[] answers)) :
    FollowsSteps m size (size + limit)
      (continueRun size (m.batch size) #[] (true :: answers)) := by
  have hadvance := advance_add_of_eq h limit
  have hrun : continueRun size (m.batch size) #[] (true :: answers) =
      let rest := continueRun size ((m.stepped size).batch size) #[] answers
      ⟨{ rest.report with events := (m.batch size).events ++ rest.report.events },
        #[((m.stepped size).inState .awaitingContinue).snapshot] ++ rest.shown⟩ := by
    rw [batch_of_advance_eq h, continueRun]
    dsimp only
    rw [batch_inState, continueRun_append]
    rfl
  rw [hrun]
  constructor
  · intro hall
    rw [stepped_add]
    exact hrest.stopped (by omega)
  · intro hlt
    rw [hadvance, Nat.add_assoc, stepped_add, stepped_add]
    exact hrest.ended (by omega)
  · rw [hadvance, Nat.add_div_left _ hsize, offered_succ]
    exact congrArg (_ ++ ·) hrest.shown
  · have hmin : min (size + (m.stepped size).advance limit + 1) (size + limit) =
        size + min ((m.stepped size).advance limit + 1) limit := by
      omega
    rw [hadvance, hmin, noted_add, ← hrest.noted, batch_of_advance_eq h]
    dsimp only
    rw [ofSteps_append, ofSteps_push_batchDone, ofSteps_noted]

/-- A run follows the steps up to the end of the batch after the last leading yes. -/
theorem followsSteps_continueRun {size : Nat} (hsize : 0 < size)
    (hm : m.state.isTerminal = false) (answers : List Bool) :
    FollowsSteps m size (((answers.takeWhile id).length + 1) * size)
      (continueRun size (m.batch size) #[] answers) := by
  have hlimit : ∀ yes, (yes + 1) * size = size + yes * size := fun yes => by
    rw [Nat.succ_mul, Nat.add_comm]
  induction answers generalizing m with
  | nil =>
    rcases Nat.lt_or_eq_of_le (m.advance_le size) with hlt | heq
    · rw [hlimit]
      exact followsSteps_of_advance_lt hm hlt _ _
    · rw [List.takeWhile_nil, List.length_nil, Nat.zero_add, Nat.one_mul]
      exact followsSteps_of_stopped hsize heq (by simp)
  | cons answer answers ih =>
    rcases Nat.lt_or_eq_of_le (m.advance_le size) with hlt | heq
    · rw [hlimit]
      exact followsSteps_of_advance_lt hm hlt _ _
    · cases answer with
      | true =>
        -- what follows a yes is a run of the machine after the batch
        have hlater := isTerminal_stepped_of_le hm (Nat.le_of_eq heq.symm)
        rw [List.takeWhile_cons_of_pos rfl, List.length_cons, hlimit]
        exact FollowsSteps.cons hsize heq (ih hlater)
      | false =>
        rw [List.takeWhile_cons_of_neg (by simp), List.length_nil, Nat.zero_add, Nat.one_mul]
        exact followsSteps_of_stopped hsize heq (by simp)

theorem runSize_pos (m : Machine) (asked : Option Int) : 0 < m.runSize asked := by
  cases asked with
  | none => exact m.batchSize_pos
  | some n =>
    change 0 < (max n 1).toNat
    omega

/-- How many steps a run performs at most. -/
def runLimit (m : Machine) (answers : List Bool) (asked : Option Int) : Nat :=
  ((answers.takeWhile id).length + 1) * m.runSize asked

theorem followsSteps_run (hm : m.state.isTerminal = false) (answers : List Bool)
    (asked : Option Int) :
    FollowsSteps m (m.runSize asked) (m.runLimit answers asked) (m.run (some answers) asked) := by
  have hfirst : m.beginRun (m.runSize asked) = m.batch (m.runSize asked) := by
    rw [beginRun, hm]
    rfl
  rw [run, hfirst]
  exact followsSteps_continueRun (m.runSize_pos asked) hm answers

/-- A run on which nobody is asked is one that nobody answers. -/
theorem report_run (m : Machine) (answers : Option (List Bool)) (asked : Option Int) :
    (m.run answers asked).report = (m.run (some (answers.getD [])) asked).report := by
  cases answers <;> rfl

/-- A run of a machine that has come to its end is ignored. -/
theorem run_of_isTerminal (hm : m.state.isTerminal = true) (answers : Option (List Bool))
    (asked : Option Int) {silence : Silence} :
    m.run answers asked silence = ⟨m.ignore "run", #[]⟩ := by
  have hne : m.state ≠ .awaitingContinue := by
    intro hstate
    rw [hstate] at hm
    cases hm
  have hfirst : m.beginRun (m.runSize asked) = m.ignore "run" := by
    rw [beginRun, hm]
    rfl
  have hanswer : (m.ignore "run").answer ≠ .ok .awaitingContinue := fun h =>
    hne (Except.ok.inj h)
  cases answers with
  | none => rw [run, hfirst, continueRun_of_ne hanswer]
  | some answers => rw [run, hfirst, continueRun_of_ne hanswer]

theorem report_run_of_isTerminal (hm : m.state.isTerminal = true) (answers : Option (List Bool))
    (asked : Option Int) : (m.run answers asked).report = m.ignore "run" := by
  rw [run_of_isTerminal hm]

/-- **A run in batches is the steps it stands for.**  It performs the steps up to the first that
does not go on, or up to the end of the batch after the last leading yes, and ends as the last of
them does or stopped.  After each batch whose steps all went on, and after no other, it shows the
machine as it stands, awaiting the word to continue. -/
theorem run_follows_steps (hm : m.state.isTerminal = false) (answers : Option (List Bool))
    (asked : Option Int) :
    let size := match asked with
      | none => m.batchSize
      | some n => (max n 1).toNat
    let limit := (((answers.getD []).takeWhile id).length + 1) * size
    let went := m.advance limit
    let run := m.run answers asked
    (∀ k < went, (m.stepped k).step.answer = .ok .ready) ∧
    run.report.machine = (m.stepped (min (went + 1) limit)).inState run.report.machine.state ∧
    ((went = limit ∧ run.report.answer = .ok .stopped ∧ run.report.machine.state = .stopped) ∨
      (went < limit ∧ run.report.answer = (m.stepped went).step.answer ∧
        ((run.report.answer = .ok .halted ∧ run.report.machine.state = .halted) ∨
          (run.report.answer = .ok .faulted ∧ run.report.machine.state = .faulted) ∨
          ∃ error, run.report.answer = .error error ∧ run.report.machine.state = .running))) ∧
    run.shown = (match answers with
      | none => #[]
      | some _ => m.offered size (went / size)) ∧
    ofSteps run.report.events = m.noted (min (went + 1) limit) := by
  intro size limit went run
  have hfollows : FollowsSteps m size limit (m.run (some (answers.getD [])) asked) :=
    followsSteps_run hm (answers.getD []) asked
  have hreport : run.report = (m.run (some (answers.getD [])) asked).report :=
    m.report_run answers asked
  rw [hreport]
  refine ⟨fun k hk => goesOn_iff.1 (goesOn_of_lt_advance hk), hfollows.machine, ?_, ?_,
    hfollows.noted⟩
  · rcases Nat.lt_or_eq_of_le (m.advance_le limit) with hlt | heq
    · obtain ⟨hanswer, hmachine⟩ := hfollows.ended hlt
      have hlast := isTerminal_stepped_of_le hm (Nat.le_refl went)
      refine Or.inr ⟨hlt, hanswer, ?_⟩
      rw [hanswer, hmachine, stepped_succ]
      exact step_of_not_goesOn hlast (not_goesOn_stepped_advance hlt)
    · obtain ⟨hanswer, hmachine⟩ := hfollows.stopped heq
      exact Or.inl ⟨heq, hanswer, by rw [hmachine]; rfl⟩
  · cases answers with
    | none => rfl
    | some answers => exact hfollows.shown

/-- A program of one instruction that jumps to itself, in batches of two. -/
def idling : Machine := ((blank 2 Nat.two_pos 1).load [.text "JMP 0"]).machine

theorem run_idling :
    idling.state.isTerminal = false ∧ (idling.run (some [true])).report.answer = .ok .stopped ∧
      (idling.run (some [true])).report.machine = (idling.stepped 4).inState .stopped ∧
      (idling.run (some [true])).shown = idling.offered 2 2 := by
  have hready : idling.state.isTerminal = false := by decide +kernel
  have hadvance : idling.advance 4 = 4 := by decide +kernel
  obtain ⟨-, hmachine, hend, hshown, -⟩ := run_follows_steps hready (some [true]) none
  change _ = (idling.stepped (min (idling.advance 4 + 1) 4)).inState _ at hmachine
  change _ = idling.offered 2 (idling.advance 4 / 2) at hshown
  rw [hadvance] at hmachine hshown
  rcases hend with ⟨-, hanswer, hstate⟩ | ⟨hlt, -⟩
  · rw [hstate] at hmachine
    exact ⟨hready, hanswer, hmachine, hshown⟩
  · change idling.advance 4 < 4 at hlt
    omega

end Machine

end Accumulator
