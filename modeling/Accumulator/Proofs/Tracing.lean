import Accumulator.Proofs.Loading
import Accumulator.Proofs.Overlong

/-!
# What tracing changes

`m.traced lines` is the machine `m` with its trace switched on and the given lines in it, and
`untraced` takes all of that away again.  `responses` are the answers to a sequence of requests,
each with the machine it leaves behind, whose trace is not looked at.

A trace line is written after an instruction is decoded and before it is executed, and it shows the
registers.  If one of them is too long to be written out, the step ends there, although the
instruction might have been executed: the machine is `Untraceable`.  A machine that is traced does
what it does without its trace exactly as long as it asks for no such step
(`transparent_unless_untraceable`).  From the first one on it is left behind, for it no longer
counts instructions; and a program can come to such a step (`not_always_transparent`).
-/

namespace Accumulator

/-- An answer to a request, and the machine afterwards.  There is no answer if the request fails. -/
structure Response where
  answer : Option (Option State)
  machine : Machine

namespace Machine

variable {m q : Machine} {lines : Array String}

/-- The machine with the lines in its trace, to which it adds. -/
def traced (m : Machine) (lines : Array String) : Machine :=
  { m with tracing := true, trace := lines }

/-- The machine without a trace. -/
def untraced (m : Machine) : Machine := { m with tracing := false, trace := #[] }

/-- What requests, one after another, come to, but for the trace. -/
def responses (m : Machine) : List Request → List Response
  | [] => []
  | request :: requests =>
    let report := m.respond request
    ⟨report.answer.toOption, report.machine.untraced⟩ :: report.machine.responses requests

/-- Whether a machine is one of which a request asks for a step. -/
def Tries (m : Machine) : Request → Machine → Prop
  | .execute request, n =>
    ∃ k < m.demand request, (∀ j < k, (m.stepped j).goesOn) ∧ n = m.stepped k
  | _, _ => False

/-- Whether a machine is one of which requests, one after another, ask for a step. -/
def Attempts (m : Machine) : List Request → Machine → Prop
  | [], _ => False
  | request :: requests, n =>
    m.Tries request n ∨ (m.respond request).machine.Attempts requests n

/-- Whether the next step executes an instruction or meets a fault, with registers that a trace line
cannot show. -/
structure Untraceable (m : Machine) : Prop where
  running : m.state.isTerminal = false
  fetched : ∃ i, m.fetch = .ok i
  unwritable : ¬ m.registers.Writable
  attempted : ∀ error, m.attempt ≠ .error (.overlong error)

/-! ### Cycles -/

theorem record_traced (q : Machine) (lines : Array String) (line : String) :
    (q.traced lines).record (some line) = q.traced (lines.push line) := rfl

/-- A cycle whose trace line can be written is the same with a trace. -/
theorem cycle_traced_of_writable (hq : q.tracing = false)
    (h : ∀ i, q.fetch = .ok i → q.registers.Writable) (lines : Array String) :
    ∃ later, (q.traced lines).cycle =
      { q.cycle with machine := q.cycle.machine.traced later } := by
  have hfetched : (q.traced lines).fetch = q.fetch := rfl
  unfold cycle
  rw [hfetched]
  cases hfetch : q.fetch with
  | error failure => exact ⟨lines, rfl⟩
  | ok i =>
    have hwritable : (q.traced lines).registers.Writable := h i hfetch
    obtain ⟨line, hline⟩ := traceLine_of_writable hwritable i
    have htraced : (q.traced lines).traceLine? i = .ok (some line) := by
      rw [traceLine?, if_pos (show (q.traced lines).tracing from rfl), hline]
      rfl
    refine ⟨lines.push line, ?_⟩
    dsimp only
    rw [htraced, traceLine?_of_untraced hq]
    dsimp only
    have hexecuted : (q.traced (lines.push line)).execute i = q.execute i := rfl
    rw [record_traced, record, hexecuted]
    cases q.toCore.execute i with
    | error failure => rfl
    | ok core => rfl

/-- A cycle whose trace line cannot be written ends there. -/
theorem cycle_traced_of_not_writable {i : Instruction} (hfetch : q.fetch = .ok i)
    (h : ¬ q.registers.Writable) (lines : Array String) :
    (q.traced lines).cycle = ⟨q.traced lines, .error (.overlong .writing), #[]⟩ := by
  have hfetched : (q.traced lines).fetch = .ok i := hfetch
  have hwritable : ¬ (q.traced lines).registers.Writable := h
  have htraced : (q.traced lines).traceLine? i = .error .writing := by
    rw [traceLine?, if_pos (show (q.traced lines).tracing from rfl),
      traceLine_of_not_writable hwritable]
    rfl
  unfold cycle
  rw [hfetched]
  dsimp only
  rw [htraced]

/-- Without a trace a cycle that fails leaves the machine as it was. -/
theorem machine_cycle_of_error (hq : q.tracing = false) {failure : Failure}
    (h : q.cycle.answer = .error failure) : q.cycle.machine = q := by
  have hcycle := q.cycleOutcome
  generalize q.cycle = report at h hcycle
  cases hcycle with
  | unfetched => rfl
  | untraced => rfl
  | refused _ htraced =>
    rw [traceLine?_of_untraced hq] at htraced
    obtain rfl := Except.ok.inj htraced
    rfl
  | executed => cases h

/-! ### Steps -/

theorem settle_traced (rest : State) (report : Report Failure Pace) (lines : Array String) :
    settle rest { report with machine := report.machine.traced lines } =
      { settle rest report with machine := (settle rest report).machine.traced lines } := by
  unfold settle
  dsimp only
  cases report.answer with
  | ok pace => cases pace <;> rfl
  | error failure => cases failure <;> rfl

/-- Where a trace line cannot be written, the step of a machine with a trace ends there. -/
theorem step_traced_of_not_writable (hrunning : q.state.isTerminal = false)
    (hfetch : ∃ i, q.fetch = .ok i) (h : ¬ q.registers.Writable) (lines : Array String) :
    (q.traced lines).step.answer = .error .writing ∧
      (q.traced lines).step.machine = (q.inState .running).traced lines := by
  obtain ⟨i, hi⟩ := hfetch
  have hterminal : (q.traced lines).state.isTerminal = false := hrunning
  rw [step_eq_settle hterminal, cycle_traced_of_not_writable hi h]
  exact ⟨rfl, rfl⟩

/-- **A step does the same with a trace**, but for the trace, unless the machine is untraceable. -/
theorem step_traced (hq : q.tracing = false) (h : ¬ q.Untraceable) (lines : Array String) :
    ∃ later, (q.traced lines).step.machine = q.step.machine.traced later ∧
      (q.traced lines).step.answer.toOption = q.step.answer.toOption := by
  cases hterminal : q.state.isTerminal with
  | true =>
    have htraced : (q.traced lines).state.isTerminal = true := hterminal
    refine ⟨lines, ?_, ?_⟩
    · rw [machine_step_of_isTerminal htraced, machine_step_of_isTerminal hterminal]
    · rw [step, htraced, step, hterminal]
      rfl
  | false =>
    have htraced : (q.traced lines).state.isTerminal = false := hterminal
    by_cases hwritable : ∀ i, q.fetch = .ok i → q.registers.Writable
    · obtain ⟨later, hcycle⟩ := cycle_traced_of_writable hq hwritable lines
      have hstart : (q.cycle.machine.traced later).start = q.cycle.machine.start.traced later := rfl
      refine ⟨later, ?_⟩
      rw [step_eq_settle htraced, hcycle, step_eq_settle hterminal]
      dsimp only
      rw [hstart, settle_traced .ready ⟨q.cycle.machine.start, q.cycle.answer, q.cycle.events⟩]
      exact ⟨rfl, rfl⟩
    -- the attempt ends in a numeral as well, so nothing happens on either side
    · obtain ⟨i, hfetch, hunwritable⟩ : ∃ i, q.fetch = .ok i ∧ ¬ q.registers.Writable := by
        simpa using hwritable
      obtain ⟨error, hattempt⟩ : ∃ error, q.attempt = .error (.overlong error) := by
        by_contra hattempted
        exact h ⟨hterminal, ⟨i, hfetch⟩, hunwritable,
          fun error herror => hattempted ⟨error, herror⟩⟩
      obtain ⟨failed, hcycle⟩ : ∃ error, q.cycle.answer = .error (.overlong error) := by
        rcases cycle_of_attempt_error hattempt with hcycle | hcycle
        · exact ⟨error, hcycle⟩
        · exact hcycle
      obtain ⟨hanswer, hmachine⟩ :=
        step_traced_of_not_writable hterminal ⟨i, hfetch⟩ hunwritable lines
      refine ⟨lines, ?_, ?_⟩
      · rw [hmachine, step_eq_settle hterminal, settle]
        dsimp only
        rw [hcycle, machine_cycle_of_error hq hcycle]
        rfl
      · rw [hanswer, (answer_step_eq_error_iff hterminal).2 hcycle]
        rfl

/-- The step of an untraceable machine does not end in a numeral that is too long. -/
theorem Untraceable.answer_step (hq : q.tracing = false) (h : q.Untraceable) (error : Overlong) :
    q.step.answer ≠ .error error := by
  intro herror
  have hcycle := (answer_step_eq_error_iff h.running).1 herror
  have houtcome := q.cycleOutcome
  generalize q.cycle = report at hcycle houtcome
  cases houtcome with
  | unfetched hfetch =>
    obtain ⟨i, hi⟩ := h.fetched
    rw [hi] at hfetch
    cases hfetch
  | untraced _ htraced =>
    rw [traceLine?_of_untraced hq] at htraced
    cases htraced
  | refused hfetch _ hrefused =>
    refine h.attempted error ?_
    rw [Core.attempt_of_fetch hfetch, hrefused, Except.error.inj hcycle]
  | executed => cases hcycle

theorem tracing_stepped (hq : q.tracing = false) (k : Nat) : (q.stepped k).tracing = false :=
  stepped_of_forall_step (P := fun n => n.tracing = false)
    (fun n hn => n.settings_step.2.2.trans hn) hq k

theorem stepped_traced (hq : q.tracing = false) {k : Nat}
    (h : ∀ j < k, ¬ (q.stepped j).Untraceable) (lines : Array String) :
    ∃ later, (q.traced lines).stepped k = (q.stepped k).traced later := by
  induction k with
  | zero => exact ⟨lines, rfl⟩
  | succ k ih =>
    obtain ⟨later, hlater⟩ := ih fun j hj => h j (Nat.lt_succ_of_lt hj)
    obtain ⟨last, hlast, -⟩ :=
      step_traced (tracing_stepped hq k) (h k (Nat.lt_succ_self k)) later
    exact ⟨last, by rw [stepped_succ, hlater, hlast, stepped_succ]⟩

theorem goesOn_of_toOption {n : Machine} (h : m.step.answer.toOption = n.step.answer.toOption) :
    m.goesOn = n.goesOn := by
  rw [goesOn, goesOn]
  cases hm : m.step.answer with
  | error error =>
    cases hn : n.step.answer with
    | error other => rfl
    | ok state =>
      rw [hm, hn] at h
      cases h
  | ok state =>
    cases hn : n.step.answer with
    | error other =>
      rw [hm, hn] at h
      cases h
    | ok other =>
      rw [hm, hn] at h
      rw [Option.some.inj h]

/-- Steps that are not untraceable go on with a trace exactly if they do without. -/
theorem goesOn_stepped_traced (hq : q.tracing = false) {k : Nat}
    (h : ∀ j < k + 1, ¬ (q.stepped j).Untraceable) (lines : Array String) :
    ((q.traced lines).stepped k).goesOn = (q.stepped k).goesOn ∧
      ((q.traced lines).stepped k).step.answer.toOption = (q.stepped k).step.answer.toOption := by
  obtain ⟨later, hlater⟩ := stepped_traced hq (fun j hj => h j (Nat.lt_succ_of_lt hj)) lines
  obtain ⟨last, -, hanswer⟩ :=
    step_traced (tracing_stepped hq k) (h k (Nat.lt_succ_self k)) later
  rw [hlater]
  exact ⟨goesOn_of_toOption hanswer, hanswer⟩

/-! ### Requests -/

theorem demand_traced (q : Machine) (lines : Array String) (request : Execution) :
    (q.traced lines).demand request = q.demand request := by
  cases request with
  | step => rfl
  | run answers asked => cases asked <;> rfl

/-- Execution does the same with a trace if no machine that it tries is untraceable. -/
theorem perform_traced (hq : q.tracing = false) {request : Execution}
    (h : ∀ n, q.Tries (.execute request) n → ¬ n.Untraceable) (lines : Array String) :
    ∃ later, ((q.traced lines).perform request).machine = (q.perform request).machine.traced later ∧
      ((q.traced lines).perform request).answer.toOption =
        (q.perform request).answer.toOption := by
  have htried : ∀ k < q.demand request, (∀ j < k, (q.stepped j).goesOn) →
      ¬ (q.stepped k).Untraceable := fun k hk hbefore => h _ ⟨k, hk, hbefore, rfl⟩
  have hperformance := q.performance request
  generalize (q.perform request).answer = answer, (q.perform request).machine = machine
    at hperformance
  cases hperformance with
  | @ended n hn hbefore hlast =>
    have hclear : ∀ j < n + 1, ¬ (q.stepped j).Untraceable := fun j hj =>
      htried j (by omega) fun i hi => hbefore i (by omega)
    have hgoes : ∀ k < n, ((q.traced lines).stepped k).goesOn := fun k hk => by
      rw [(goesOn_stepped_traced hq (fun j hj => hclear j (by omega)) lines).1]
      exact hbefore k hk
    obtain ⟨hsame, hanswer⟩ := goesOn_stepped_traced hq hclear lines
    obtain ⟨hlastAnswer, hlastMachine⟩ := perform_of_last (m := q.traced lines)
      (by rw [demand_traced]; exact hn) hgoes (by rw [hsame]; exact hlast)
    obtain ⟨later, hlater⟩ := stepped_traced hq hclear lines
    rw [stepped_succ, stepped_succ] at hlater
    exact ⟨later, hlastMachine.trans hlater, by rw [hlastAnswer, hanswer]⟩
  | rested hbefore =>
    have hclear : ∀ j < q.demand request, ¬ (q.stepped j).Untraceable := fun j hj =>
      htried j hj fun i hi => hbefore i (Nat.lt_trans hi hj)
    have hgoes : ∀ k < (q.traced lines).demand request, ((q.traced lines).stepped k).goesOn := by
      intro k hk
      rw [demand_traced] at hk
      rw [(goesOn_stepped_traced hq (fun j hj => hclear j (by omega)) lines).1]
      exact hbefore k hk
    obtain ⟨hanswer, hmachine⟩ := perform_of_goesOn hgoes
    obtain ⟨later, hlater⟩ := stepped_traced hq hclear lines
    rw [demand_traced, hlater] at hmachine
    exact ⟨later, hmachine, by rw [hanswer]⟩

/-- **A request does the same with a trace** if no machine that it tries is untraceable. -/
theorem respond_traced (hq : q.tracing = false) {request : Request}
    (h : ∀ n, q.Tries request n → ¬ n.Untraceable) (lines : Array String) :
    ∃ later, ((q.traced lines).respond request).machine = (q.respond request).machine.traced later ∧
      ((q.traced lines).respond request).answer.toOption =
        (q.respond request).answer.toOption := by
  cases request with
  | load program =>
    have hsize : (q.traced lines).memory.size = q.memory.size := rfl
    rw [respond, respond, Report.answering, Report.answering, load, load, hsize]
    cases (Memory.blank q.memory.size).load program with
    | error failure => exact ⟨lines, rfl, rfl⟩
    | ok memory => exact ⟨#[], rfl, rfl⟩
  | reset =>
    have hclear : (q.traced lines).memory.clear.load (q.traced lines).program =
        q.memory.clear.load q.program := rfl
    rw [respond, respond, Report.answering, Report.answering, reset, reset, hclear]
    cases q.memory.clear.load q.program with
    | error failure => exact ⟨lines, rfl, rfl⟩
    | ok memory => exact ⟨#[], rfl, rfl⟩
  | execute request =>
    obtain ⟨later, hmachine, hanswer⟩ := perform_traced hq h lines
    refine ⟨later, hmachine, ?_⟩
    rw [respond, respond, Report.answering, Report.answering]
    dsimp only
    revert hanswer
    cases ((q.traced lines).perform request).answer with
    | error error =>
      cases (q.perform request).answer with
      | error other => exact fun _ => rfl
      | ok state => intro hanswer; cases hanswer
    | ok state =>
      cases (q.perform request).answer with
      | error other => intro hanswer; cases hanswer
      | ok other => intro hanswer; rw [Option.some.inj hanswer]
  | write address word =>
    have hwrite : (q.traced lines).memory.write address word = q.memory.write address word := rfl
    rw [respond, respond, write, write, hwrite]
    cases q.memory.write address word with
    | error failure => exact ⟨lines, rfl, rfl⟩
    | ok memory => exact ⟨lines, rfl, rfl⟩
  | clearMemory => exact ⟨lines, rfl, rfl⟩
  | setNumber value register => exact ⟨lines, rfl, rfl⟩
  | setFlag value register => exact ⟨lines, rfl, rfl⟩
  | declare name =>
    have hdeclare : (q.traced lines).symbols.declare name = q.symbols.declare name := rfl
    rw [respond, respond, Report.answering, Report.answering, declare, declare, hdeclare]
    cases q.symbols.declare name with
    | error failure => exact ⟨lines, rfl, rfl⟩
    | ok symbols => exact ⟨lines, rfl, rfl⟩

/-! ### Requests that go apart -/

theorem executed_le_step (m : Machine) :
    m.registers.executed ≤ m.step.machine.registers.executed := by
  rcases m.toCore_step with hsame | ⟨i, -, hexecute⟩
  · exact Int.le_of_eq (by rw [hsame])
  · have hcount := (Core.registers_execute hexecute).1
    omega

theorem executed_le_stepped (m : Machine) (n : Nat) :
    m.registers.executed ≤ (m.stepped n).registers.executed := by
  induction n with
  | zero => exact Int.le_refl _
  | succ n ih =>
    rw [stepped_succ]
    exact Int.le_trans ih (m.stepped n).executed_le_step

theorem executed_step_of_goesOn (h : m.goesOn) :
    m.step.machine.registers.executed = m.registers.executed + 1 := by
  obtain ⟨i, -, hexecute⟩ := execute_of_goesOn h
  exact (Core.registers_execute hexecute).1

/-- **Execution that comes to an untraceable machine is different with a trace.** -/
theorem perform_traced_ne (hq : q.tracing = false) {request : Execution} {k : Nat}
    (hk : k < q.demand request) (hbefore : ∀ j < k, (q.stepped j).goesOn)
    (hclear : ∀ j < k, ¬ (q.stepped j).Untraceable) (huntraceable : (q.stepped k).Untraceable)
    (lines : Array String) :
    ((q.traced lines).perform request).machine.untraced ≠ (q.perform request).machine.untraced := by
  -- with a trace the request ends with this step, and leaves the machine running
  obtain ⟨later, hlater⟩ := stepped_traced hq hclear lines
  obtain ⟨hanswer, hmachine⟩ := step_traced_of_not_writable huntraceable.running
    huntraceable.fetched huntraceable.unwritable later
  have hgoes : ∀ j < k, ((q.traced lines).stepped j).goesOn := fun j hj => by
    rw [(goesOn_stepped_traced hq (fun i hi => hclear i (by omega)) lines).1]
    exact hbefore j hj
  have hlast : ¬ ((q.traced lines).stepped k).goesOn := by
    rw [goesOn_iff, hlater, hanswer]
    simp
  obtain ⟨-, htraced⟩ := perform_of_last (m := q.traced lines)
    (by rw [demand_traced]; exact hk) hgoes hlast
  rw [htraced, hlater, hmachine]
  intro hsame
  have hstate : (q.perform request).machine.state = .running :=
    (congrArg Machine.state hsame).symm
  have hcount : (q.perform request).machine.registers.executed =
      (q.stepped k).registers.executed :=
    (congrArg (fun n => n.registers.executed) hsame).symm
  -- without one it is left running only by a later step, when this one has been counted
  have hperformance := q.performance request
  generalize (q.perform request).answer = answer, (q.perform request).machine = machine
    at hperformance hstate hcount
  cases hperformance with
  | @ended n _ hstepped hstop =>
    rcases Nat.lt_trichotomy n k with hlt | rfl | hgt
    · exact hstop (hbefore n hlt)
    · rcases step_of_not_goesOn huntraceable.running hstop with ⟨-, h⟩ | ⟨-, h⟩ | ⟨error, h, -⟩
      · rw [h] at hstate
        cases hstate
      · rw [h] at hstate
        cases hstate
      · exact huntraceable.answer_step (tracing_stepped hq n) error h
    · obtain ⟨d, rfl⟩ : ∃ d, n = k + 1 + d := ⟨n - (k + 1), by omega⟩
      have hone := executed_step_of_goesOn (hstepped k hgt)
      have hmore := (q.stepped (k + 1)).executed_le_stepped d
      have hend := (q.stepped (k + 1 + d)).executed_le_step
      rw [stepped_succ] at hmore
      rw [stepped_add, stepped_succ] at hend
      rw [stepped_add, stepped_succ] at hcount
      omega
  | rested => cases request <;> cases hstate

/-- A request that is answered the same with a trace tries no untraceable machine. -/
theorem not_untraceable_of_tries (hq : q.tracing = false) {request : Request}
    (h : ((q.traced lines).respond request).machine.untraced =
      (q.respond request).machine.untraced) (n : Machine) (hn : q.Tries request n) :
    ¬ n.Untraceable := by
  cases request with
  | execute request =>
    obtain ⟨k, hk, hbefore, rfl⟩ := hn
    -- the first of the untraceable ones, if there were any, would tell the two apart
    induction k using Nat.strongRecOn with
    | ind k ih =>
      intro huntraceable
      refine perform_traced_ne hq hk hbefore (fun j hj => ?_) huntraceable lines h
      exact ih j hj (Nat.lt_trans hj hk) fun i hi => hbefore i (Nat.lt_trans hi hj)
  | _ => cases hn

theorem responses_traced_eq_iff (hq : q.tracing = false) (lines : Array String)
    (requests : List Request) :
    (q.traced lines).responses requests = q.responses requests ↔
      ∀ n, q.Attempts requests n → ¬ n.Untraceable := by
  induction requests generalizing q lines with
  | nil => exact ⟨fun _ n hn => absurd hn id, fun _ => rfl⟩
  | cons request requests ih =>
    have hlater : (q.respond request).machine.tracing = false :=
      (q.kept_respond request).2.2.trans hq
    rw [responses, responses]
    constructor
    · intro h n hn
      obtain ⟨hhead, htail⟩ := List.cons.inj h
      have hclear := not_untraceable_of_tries hq (congrArg Response.machine hhead)
      obtain ⟨later, hmachine, -⟩ := respond_traced hq hclear lines
      rw [hmachine] at htail
      rcases hn with hn | hn
      · exact hclear n hn
      · exact (ih hlater later).1 htail n hn
    · intro h
      obtain ⟨later, hmachine, hanswer⟩ := respond_traced hq (fun n hn => h n (Or.inl hn)) lines
      rw [hmachine, hanswer, (ih hlater later).2 fun n hn => h n (Or.inr hn)]
      rfl

/-- **Tracing is transparent unless a machine is untraceable.**  A machine that is traced and the
same machine without a trace give the same answers to requests and are left the same by each of
them, but for the trace, exactly if no request asks for a step of a machine whose next step executes
an instruction or meets a fault while a register is too long to be written out. -/
theorem transparent_unless_untraceable (m : Machine) (requests : List Request) :
    (m.setTracing true).responses requests = (m.setTracing false).responses requests ↔
      ∀ n, (m.setTracing false).Attempts requests n → ¬ n.Untraceable :=
  responses_traced_eq_iff (q := m.setTracing false) rfl m.trace requests

/-! ### A program that is told apart -/

/-- Without a trace a step executes an instruction that does not halt, and goes on. -/
theorem step_of_execute (hq : q.tracing = false) (hrunning : q.state.isTerminal = false)
    {i : Instruction} {core : Core} (hfetch : q.fetch = .ok i)
    (hexecute : q.toCore.execute i = .ok core) (hi : i.halts = false) :
    q.goesOn ∧ q.step.machine = ({ q with toCore := core }).inState .ready := by
  have hcycle : q.cycle = ⟨{ q with toCore := core }, .ok .goesOn,
      #[.decoded q.registers.programCounter i] ++ q.sideNotes i⟩ := by
    rw [cycle, hfetch]
    dsimp only
    rw [traceLine?_of_untraced hq]
    dsimp only [record]
    rw [hexecute, hi]
    rfl
  rw [goesOn_iff, step_eq_settle hrunning, hcycle]
  exact ⟨rfl, rfl⟩

/-- A program that adds one to `n` and halts. -/
def surpass (n : Int) : List Instruction :=
  [.loadImmediate n, .exchange, .loadImmediate 1, .add, .halt]

/-- A machine with that program, which fills its memory. -/
def surpassStart (n : Int) : Machine :=
  ((blank 5 (by decide) 5).load ((surpass n).map fun i => .text i.text)).machine

/-- What the machine has in its registers after `k` steps, up to the last. -/
def surpassRegisters (n : Int) : Nat → Registers
  | 0 => {}
  | 1 => { accumulator := n, programCounter := 1, executed := 1 }
  | 2 => { data := n, programCounter := 2, executed := 2 }
  | 3 => { accumulator := 1, data := n, programCounter := 3, executed := 3 }
  | _ =>
    { accumulator := 1 + n
      data := n
      programCounter := 4
      zero := 1 + n == 0
      overflow := !inInt32 (1 + n)
      executed := 4 }

/-- The machine after `k` steps. -/
def surpassAt (n : Int) (k : Nat) : Machine :=
  { surpassStart n with registers := surpassRegisters n k }

theorem fetch_surpass {n : Int} (hn : Numeral.fits n) {k : Nat} {i : Instruction}
    (hpc : (surpassRegisters n k).programCounter = k) (hi : (surpass n)[k]? = some i) :
    (surpassAt n k).fetch = .ok i := by
  have hone : Numeral.fits 1 := fits_of_le_maxIndex (by decide) (by decide)
  have hwell : i.WellFormed := by
    have hmem := List.mem_of_getElem? hi
    simp only [surpass, List.mem_cons, List.not_mem_nil, or_false] at hmem
    intro operand hoperand
    rcases hmem with rfl | rfl | rfl | rfl | rfl
    · exact Option.some.inj hoperand ▸ hn
    · cases hoperand
    · exact Option.some.inj hoperand ▸ hone
    · cases hoperand
    · cases hoperand
  refine Core.fetch_of_text hwell ?_
  show (surpassAt n k).memory.read (surpassRegisters n k).programCounter = _
  have hloaded : ((blank 5 (by decide) 5).load
      ((surpass n).map fun i => .text i.text)).answer = .ok () := rfl
  obtain ⟨memory, hload, hmachine⟩ := of_load hloaded
  have hmemory : (surpassAt n k).memory = memory := congrArg (·.memory) hmachine
  rw [hpc, hmemory, Memory.read_load hload, List.getElem?_map, hi]
  rfl

theorem step_surpassAt {n : Int} (hn : Numeral.fits n) {k : Nat} (hk : k < 4) :
    (surpassAt n k).goesOn ∧ (surpassAt n k).step.machine = surpassAt n (k + 1) := by
  obtain rfl | rfl | rfl | rfl : k = 0 ∨ k = 1 ∨ k = 2 ∨ k = 3 := by omega
  · exact step_of_execute rfl rfl (fetch_surpass hn rfl (i := .loadImmediate n) rfl) rfl rfl
  · exact step_of_execute rfl rfl (fetch_surpass hn rfl (i := .exchange) rfl) rfl rfl
  · exact step_of_execute rfl rfl (fetch_surpass hn rfl (i := .loadImmediate 1) rfl) rfl rfl
  · exact step_of_execute rfl rfl (fetch_surpass hn rfl (i := .add) rfl) rfl rfl

theorem stepped_surpassStart {n : Int} (hn : Numeral.fits n) {k : Nat} (hk : k ≤ 4) :
    (surpassStart n).stepped k = surpassAt n k := by
  induction k with
  | zero => rfl
  | succ k ih => rw [stepped_succ, ih (by omega), (step_surpassAt hn (by omega)).2]

/-- **Tracing is not always transparent.**  A machine with a program that adds one to the greatest
integer that can be written out, and halts, is run.  With a trace the run ends in a numeral that is
too long; without one it ends with the program. -/
theorem not_always_transparent : ¬ ∀ m : Machine, Programmed m → ∀ requests : List Request,
    (∀ request ∈ requests, request = .reset ∨ ∃ execution, request = .execute execution) →
    (m.setTracing true).responses requests = (m.setTracing false).responses requests := by
  intro h
  obtain ⟨hn, hoverlong⟩ := Numeral.fits_bound_pred
  generalize (Numeral.bound - 1 : Int) = n at hn hoverlong
  have hnew : Machine.new 5 5 = .ok (blank 5 (by decide) 5) := rfl
  have hprogrammed : Programmed (surpassStart n) := (Programmed.new hnew).load _
  have hsame := h (surpassStart n) hprogrammed [.execute (.run none none)]
    fun request hrequest => Or.inr ⟨_, List.mem_singleton.1 hrequest⟩
  have hclear := (responses_traced_eq_iff (q := surpassStart n) rfl #[] _).1 hsame
  have hlast : (surpassStart n).stepped 4 = surpassAt n 4 :=
    stepped_surpassStart hn (Nat.le_refl 4)
  have hfetch : (surpassAt n 4).fetch = .ok .halt := fetch_surpass hn rfl rfl
  have hdemand : (surpassStart n).demand (.run none none) = 5 := rfl
  refine hclear _ (Or.inl ⟨4, by omega, fun k hk => ?_, rfl⟩) ?_
  · rw [stepped_surpassStart hn (by omega)]
    exact (step_surpassAt hn hk).1
  · rw [hlast]
    refine ⟨rfl, ⟨.halt, hfetch⟩, fun hwritable => ?_, fun error herror => ?_⟩
    · exact Bool.false_ne_true (hoverlong.symm.trans hwritable.2.1)
    · rw [Core.attempt_of_fetch hfetch] at herror
      cases herror

end Machine

end Accumulator
