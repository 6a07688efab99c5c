import Accumulator.Proofs.Opening

/-!
# Sessions tick by tick

A `Moment` is where a session stands: it waits for an answer, it is at work on the cycles that a
line has asked for, or it is over.  A `tick` takes an answer, attempts one cycle, or ends a session
that has no answer left.  `outcome` is what a session comes to from a moment on, and no tick changes
it (`outcome_tick`).

Every tick of a session with batches of `b` lowers its `budget`: an answer that is left is worth the
cycles of a batch and a tick more, and the work in hand the cycles that are left of it.  So a
session is over after as many ticks as that, whether or not its program ends (`ends_within`).  A
line grants `b` cycles at most, and nothing else grants any (`Within`).  The cycles that have been
attempted are those that the machine counts: as long as the session is not over, it has executed an
instruction in each of them (`Fits`).
-/

namespace Accumulator

namespace Session

variable {o : Options} {m : Machine}

/-! ### Work -/

/-- The cycles that a line asks for: one, or a batch of so many. -/
inductive Work
  | step
  | batch (size : Nat)

namespace Work

/-- How many cycles there are. -/
def cycles : Work → Nat
  | step => 1
  | batch size => size

/-- What the cycles come to when all of them have been attempted, or one of them does not go on. -/
def finish : Work → Report Failure Pace → Report Overlong State
  | step, report => Machine.settle .ready report
  | batch size, report =>
    let settled := Machine.settle .awaitingContinue report
    match settled.answer with
    | .ok .awaitingContinue =>
      { settled with
        events := settled.events.push (.batchDone size settled.machine.registers.programCounter) }
    | _ => settled

end Work

/-- The cycles that a line asks a waiting session for, if it asks for any. -/
def work? (s : Session) (text : String) : Option Work :=
  match s.question with
  | .command =>
    match Command.ofLine? text with
    | some .step => if s.machine.state.isTerminal then none else some .step
    | some .run => if s.machine.state.isTerminal then none else some (.batch s.machine.batchSize)
    | _ => none
  | .continuation => if saysYes text then some (.batch s.machine.batchSize) else none

theorem cycles_succ (m : Machine) (noted : Array Event) (left : Nat) :
    m.cycles noted (left + 1) = match m.cycle.answer with
      | .ok .goesOn => m.cycle.machine.cycles (noted ++ m.cycle.events) left
      | answer => ⟨m.cycle.machine, answer, noted ++ m.cycle.events⟩ := rfl

theorem cycles_one (m : Machine) : m.cycles #[] 1 = m.cycle := by
  unfold Machine.cycles
  dsimp only
  split
  · next hanswer => rw [Machine.cycles, Array.empty_append, ← hanswer]
  · rw [Array.empty_append]

/-- A line that asks for cycles leads to what comes of them, and asks for no more than a batch. -/
theorem reply_of_work {s : Session} {text : String} {work : Work} (h : s.work? text = some work) :
    0 < work.cycles ∧ work.cycles ≤ s.machine.batchSize ∧
      s.reply (.line text) = afterRequest s.options
        (work.finish (s.machine.start.cycles #[] work.cycles)) := by
  obtain ⟨o, m, question⟩ := s
  unfold work? at h
  cases question with
  | continuation =>
    dsimp only at h
    split at h
    · next hyes =>
      obtain rfl := Option.some.inj h
      refine ⟨m.batchSize_pos, Nat.le_refl _, ?_⟩
      show decide o m (saysYes text) = _
      rw [decide, if_pos hyes]
      rfl
    · cases h
  | command =>
    have hreply : (⟨o, m, .command⟩ : Session).reply (.line text) =
        obey o m (Command.ofLine? text) := rfl
    rw [hreply]
    dsimp only at h
    split at h
    · next hcommand =>
      split at h
      · cases h
      · next hm =>
        obtain rfl := Option.some.inj h
        refine ⟨Nat.one_pos, m.batchSize_pos, ?_⟩
        show _ = afterRequest o (Machine.settle .ready (m.start.cycles #[] 1))
        rw [hcommand, obey, Machine.step, if_neg hm, cycles_one]
    · next hcommand =>
      split at h
      · cases h
      · next hm =>
        obtain rfl := Option.some.inj h
        refine ⟨m.batchSize_pos, Nat.le_refl _, ?_⟩
        rw [hcommand, obey, Machine.beginRun, if_neg hm]
        rfl
    · cases h

/-! ### The machine behind a turn -/

/-- Whether the machine of a session that a turn leads to has batches of the size, and has executed
so many instructions. -/
def Keeps (b : Nat) (executed : Int) (turn : Turn Next) : Prop :=
  ∀ s, turn.next = .wait s →
    s.machine.batchSize = b ∧ s.machine.registers.executed = executed

theorem keeps_done (b : Nat) (executed : Int) (said : List Utterance) (ending : Ending) :
    Keeps b executed ⟨said, .done ending⟩ := fun _ h => Next.noConfusion h

theorem keeps_askCommand (o : Options) (m : Machine) (said : List Utterance) :
    Keeps m.batchSize m.registers.executed (askCommand o m said) := by
  intro s hs
  obtain rfl := Next.wait.inj hs
  exact ⟨rfl, rfl⟩

/-- A session goes on after a request only if the program does. -/
theorem keeps_afterRequest {b : Nat} {executed : Int} {report : Report Overlong State}
    (hsize : report.machine.batchSize = b)
    (h : ∀ state, report.answer = .ok state → state.isTerminal = false →
      report.machine.registers.executed = executed) :
    Keeps b executed (afterRequest o report) := by
  subst hsize
  unfold afterRequest
  dsimp only
  split
  · exact keeps_done _ _ _ _
  · exact keeps_done _ _ _ _
  · next state _ hanswer _ =>
    split
    · obtain rfl := h _ hanswer rfl
      intro s hs
      obtain rfl := Next.wait.inj hs
      exact ⟨rfl, rfl⟩
    · exact keeps_done _ _ _ _
    · exact keeps_done _ _ _ _
    · next hhalted hfaulted =>
      have hgoesOn : state.isTerminal = false := by
        cases state with
        | halted => exact absurd rfl hhalted
        | faulted => exact absurd rfl hfaulted
        | _ => rfl
      obtain rfl := h state hanswer hgoesOn
      exact keeps_askCommand o _ _

/-- An answer that asks for no cycles leaves the machine at the instruction where it is. -/
theorem keeps_reply {s : Session} {answer : Reply}
    (h : ∀ text, answer = .line text → s.work? text = none) :
    Keeps s.machine.batchSize s.machine.registers.executed (s.reply answer) := by
  obtain ⟨o, m, question⟩ := s
  cases answer with
  | interrupt => exact keeps_done _ _ _ _
  | line text =>
    have hwork := h text rfl
    unfold work? at hwork
    cases question with
    | continuation =>
      show Keeps _ _ (decide o m (saysYes text))
      dsimp only at hwork
      split at hwork
      · cases hwork
      · next hno =>
        rw [decide, if_neg hno]
        exact keeps_afterRequest rfl fun _ _ _ => rfl
    | command =>
      show Keeps _ _ (obey o m (Command.ofLine? text))
      dsimp only at hwork
      unfold obey
      split
      · exact keeps_askCommand o m _
      · next hcommand =>
        rw [hcommand] at hwork
        dsimp only at hwork
        split at hwork
        · next hm =>
          rw [Machine.step, if_pos hm]
          exact keeps_afterRequest rfl fun _ _ _ => rfl
        · cases hwork
      · next hcommand =>
        rw [hcommand] at hwork
        dsimp only at hwork
        split at hwork
        · next hm =>
          rw [Machine.beginRun, if_pos hm]
          exact keeps_afterRequest rfl fun _ _ _ => rfl
        · cases hwork
      · exact keeps_done _ _ _ _

/-- What is done with the last cycle of some work changes neither batches nor registers, and the
program goes on only if it does after this cycle. -/
theorem finish_cases (work : Work) (report : Report Failure Pace) :
    (work.finish report).machine.batchSize = report.machine.batchSize ∧
      (work.finish report).machine.registers = report.machine.registers ∧
      ∀ state, (work.finish report).answer = .ok state → state.isTerminal = false →
        report.answer = .ok .goesOn := by
  have hsettled : ∀ rest : State,
      (Machine.settle rest report).machine.batchSize = report.machine.batchSize ∧
        (Machine.settle rest report).machine.registers = report.machine.registers ∧
        ∀ state, (Machine.settle rest report).answer = .ok state → state.isTerminal = false →
          report.answer = .ok .goesOn := by
    intro rest
    unfold Machine.settle
    dsimp only
    split
    · next hanswer => exact ⟨rfl, rfl, fun _ _ _ => hanswer⟩
    · refine ⟨rfl, rfl, fun state hstate hgoesOn => ?_⟩
      obtain rfl := Except.ok.inj hstate
      cases hgoesOn
    · refine ⟨rfl, rfl, fun state hstate hgoesOn => ?_⟩
      obtain rfl := Except.ok.inj hstate
      cases hgoesOn
    · exact ⟨rfl, rfl, fun state hstate => by cases hstate⟩
  cases work with
  | step => exact hsettled .ready
  | batch size =>
    have hbatch := hsettled .awaitingContinue
    unfold Work.finish
    dsimp only
    split
    · next hasked => exact ⟨hbatch.1, hbatch.2.1, fun _ _ _ => hbatch.2.2 _ hasked rfl⟩
    · exact hbatch

theorem executed_cycle (h : m.cycle.answer = .ok .goesOn) :
    m.cycle.machine.registers.executed = m.registers.executed + 1 := by
  have hcycle := m.cycleOutcome
  generalize m.cycle = report at h hcycle
  cases hcycle with
  | unfetched => cases h
  | untraced => cases h
  | refused => cases h
  | executed _ _ hexecute => exact (Core.registers_execute hexecute).1

/-! ### Moments -/

/-- What a session is about. -/
inductive Stage
  /-- It waits for an answer. -/
  | waiting (session : Session)
  /-- It attempts cycles, one and at most `left` more. -/
  | working (o : Options) (m : Machine) (work : Work) (noted : Array Event) (left : Nat)
  | ended (ending : Ending)

/-- The machine of a session that is not over. -/
def Stage.machine? : Stage → Option Machine
  | waiting s => some s.machine
  | working _ m _ _ _ => some m
  | ended _ => none

/-- The stage that a turn leads to. -/
def Stage.of : Next → Stage
  | .wait session => waiting session
  | .done ending => ended ending

/-- Where a session stands. -/
structure Moment where
  stage : Stage
  /-- The answers that have not been taken. -/
  script : List Reply
  said : List Utterance
  /-- How many lines have been taken. -/
  taken : Nat
  /-- How many cycles have been attempted. -/
  attempted : Nat

namespace Moment

variable {μ : Moment}

/-- The session from a turn on with the given answers and then the end of input. -/
def begin (turn : Turn Next) (script : List Reply) : Moment :=
  ⟨.of turn.next, script, turn.said, 0, 0⟩

/-- The session with a turn taken. -/
def enter (μ : Moment) (turn : Turn Next) : Moment :=
  { μ with stage := .of turn.next, said := μ.said ++ turn.said }

/-- One cycle attempted in a session, of which at most `left` more remain to be attempted. -/
def attempt (μ : Moment) (o : Options) (m : Machine) (work : Work) (noted : Array Event)
    (left : Nat) : Moment :=
  let report := m.cycle
  let noted := noted ++ report.events
  let μ := { μ with attempted := μ.attempted + 1 }
  match report.answer, left with
  | .ok .goesOn, left + 1 => { μ with stage := .working o report.machine work noted left }
  | answer, _ => μ.enter (afterRequest o (work.finish ⟨report.machine, answer, noted⟩))

/-- An answer taken by a waiting session.  No cycle is attempted if it asks for none: the session
refuses it, leaves, or stops a run. -/
def take (μ : Moment) (s : Session) (answer : Reply) (script : List Reply) : Moment :=
  match answer with
  | .interrupt => { μ with script }.enter (s.reply .interrupt)
  | .line text =>
    let μ := { μ with script, taken := μ.taken + 1 }
    match s.work? text with
    | some work =>
      { μ with stage := .working s.options s.machine.start work #[] (work.cycles - 1) }
    | none => μ.enter (s.reply (.line text))

/-- The next moment of a session. -/
def tick (μ : Moment) : Moment :=
  match μ.stage with
  | .ended _ => μ
  | .working o m work noted left => μ.attempt o m work noted left
  | .waiting s =>
    match μ.script with
    | [] => { μ with stage := .ended s.close.next, said := μ.said ++ s.close.said }
    | answer :: script => μ.take s answer script

/-- The session so many ticks later. -/
def later (μ : Moment) : Nat → Moment
  | 0 => μ
  | n + 1 => μ.tick.later n

theorem later_add (μ : Moment) (k n : Nat) : μ.later (k + n) = (μ.later k).later n := by
  induction k generalizing μ with
  | zero => rw [Nat.zero_add]; rfl
  | succ k ih => rw [Nat.add_right_comm]; exact ih μ.tick

theorem later_succ (μ : Moment) (n : Nat) : μ.later (n + 1) = (μ.later n).tick := μ.later_add n 1

/-! ### What a session comes to -/

/-- What is left of a session at a stage, with the answers that have not been taken. -/
def rest (script : List Reply) : Stage → Turn Ending
  | .waiting s => play ⟨[], .wait s⟩ script
  | .working o m work noted left =>
    play (afterRequest o (work.finish (m.cycles noted (left + 1)))) script
  | .ended ending => ⟨[], ending⟩

/-- What the whole session comes to. -/
def outcome (μ : Moment) : Turn Ending :=
  ⟨μ.said ++ (rest μ.script μ.stage).said, (rest μ.script μ.stage).next⟩

theorem outcome_begin (turn : Turn Next) (script : List Reply) :
    (begin turn script).outcome = play turn script := by
  obtain ⟨said, next⟩ := turn
  have happend := play_append said [] next script
  rw [List.append_nil] at happend
  rw [happend]
  cases next with
  | wait s => rfl
  | done ending =>
    rw [play_done]
    rfl

theorem outcome_enter (μ : Moment) (turn : Turn Next) :
    (μ.enter turn).outcome =
      ⟨μ.said ++ (play turn μ.script).said, (play turn μ.script).next⟩ := by
  have hbegin := outcome_begin turn μ.script
  rw [← hbegin]
  simp only [outcome, enter, begin, List.append_assoc]

/-- A cycle that is attempted is the first of those that are left. -/
theorem outcome_attempt (μ : Moment) (o : Options) (m : Machine) (work : Work)
    (noted : Array Event) (left : Nat) :
    (μ.attempt o m work noted left).outcome =
      { μ with stage := .working o m work noted left }.outcome := by
  have hcycles := cycles_succ m noted left
  unfold attempt
  dsimp only
  split
  · next left hanswer =>
    rw [hanswer] at hcycles
    simp only [outcome, rest, hcycles]
  · next n _ _ hnot =>
    rw [outcome_enter]
    have hlast : m.cycles noted (n + 1) =
        ⟨m.cycle.machine, m.cycle.answer, noted ++ m.cycle.events⟩ := by
      rw [hcycles]
      split
      · next hanswer =>
        cases n with
        | zero => rw [Machine.cycles, hanswer]
        | succ n => exact (hnot n hanswer rfl).elim
      · rfl
    simp only [outcome, rest, hlast]

theorem outcome_take (μ : Moment) (s : Session) (answer : Reply) (script : List Reply) :
    (μ.take s answer script).outcome =
      { μ with stage := .waiting s, script := answer :: script }.outcome := by
  cases answer with
  | interrupt => exact outcome_enter _ _
  | line text =>
    rw [take]
    dsimp only
    split
    · next work hwork =>
      obtain ⟨hpos, -, hreply⟩ := reply_of_work hwork
      simp only [outcome, rest, Nat.sub_add_cancel hpos, play_cons, hreply, List.nil_append]
    · exact outcome_enter _ _

/-- **No tick changes what a session comes to.** -/
theorem outcome_tick (μ : Moment) : μ.tick.outcome = μ.outcome := by
  obtain ⟨stage, script, said, taken, attempted⟩ := μ
  cases stage with
  | ended ending => rfl
  | working o m work noted left => exact outcome_attempt _ o m work noted left
  | waiting s =>
    cases script with
    | nil => simp [tick, outcome, rest, play_nil]
    | cons answer script => exact outcome_take _ s answer script

theorem outcome_later (μ : Moment) (n : Nat) : (μ.later n).outcome = μ.outcome := by
  induction n with
  | zero => rfl
  | succ n ih => rw [later_succ, outcome_tick, ih]

/-! ### What cycles there are -/

/-- How many cycles the line taken last still grants. -/
def granted (μ : Moment) : Nat :=
  match μ.stage with
  | .working _ _ _ _ left => left + 1
  | _ => 0

/-- How many lines there are among answers. -/
def lineCount (script : List Reply) : Nat := script.countP fun answer => answer != .interrupt

/-- A moment of a session with batches of the size, which is at work on no more than one: its
machine has executed as many instructions as cycles have been attempted. -/
structure Fits (b : Nat) (μ : Moment) : Prop where
  machine : ∀ m, μ.stage.machine? = some m →
    m.batchSize = b ∧ m.registers.executed = μ.attempted
  granted : μ.granted ≤ b

/-- Whether the session of a moment is over. -/
def IsOver (μ : Moment) : Prop := ∃ ending, μ.stage = .ended ending

theorem granted_enter (μ : Moment) (turn : Turn Next) : (μ.enter turn).granted = 0 := by
  obtain ⟨said, next⟩ := turn
  cases next <;> rfl

theorem fits_enter {b : Nat} {turn : Turn Next} (h : Keeps b μ.attempted turn) :
    (μ.enter turn).Fits b := by
  refine ⟨fun m hm => ?_, ?_⟩
  · obtain ⟨said, next⟩ := turn
    cases next with
    | wait s =>
      obtain rfl := Option.some.inj hm
      exact h s rfl
    | done ending => cases hm
  · rw [granted_enter]
    exact Nat.zero_le b

/-- What a tick can do. -/
inductive Ticked (b : Nat) (μ ν : Moment) : Prop
  /-- The session is over. -/
  | idle (ended : μ.IsOver) (same : ν = μ)
  /-- There is no answer left to be taken. -/
  | closed (script : μ.script = []) (ended : ν.IsOver) (script_eq : ν.script = [])
      (taken : ν.taken = μ.taken) (attempted : ν.attempted = μ.attempted)
  /-- An answer is taken, which grants the cycles of a batch at most. -/
  | took {answer : Reply} {rest : List Reply} (script : μ.script = answer :: rest)
      (waiting : μ.granted = 0) (script_eq : ν.script = rest)
      (taken : ν.taken = μ.taken + lineCount [answer]) (attempted : ν.attempted = μ.attempted)
      (granted : ν.granted ≤ b * lineCount [answer]) (fits : ν.Fits b)
  /-- A cycle that was granted is attempted. -/
  | worked (script_eq : ν.script = μ.script) (taken : ν.taken = μ.taken)
      (attempted : ν.attempted = μ.attempted + 1) (granted : ν.granted < μ.granted)
      (fits : ν.Fits b)

theorem ticked_attempt {b : Nat} (h : μ.Fits b) {work : Work} {noted : Array Event} {left : Nat}
    (hstage : μ.stage = .working o m work noted left) :
    Ticked b μ (μ.attempt o m work noted left) := by
  have hgranted : μ.granted = left + 1 := by rw [granted, hstage]
  have hleft : left + 1 ≤ b := hgranted ▸ h.granted
  obtain ⟨hsize, hexecuted⟩ := h.machine m (by rw [hstage]; rfl)
  have hcycle : m.cycle.machine.batchSize = b := m.settings_cycle.1.trans hsize
  have hcount : m.cycle.answer = .ok .goesOn →
      m.cycle.machine.registers.executed = ((μ.attempted + 1 : Nat) : Int) := fun hgoesOn => by
    rw [executed_cycle hgoesOn, hexecuted, Int.natCast_succ]
  unfold attempt
  dsimp only
  split
  · next left hgoesOn =>
    refine .worked rfl rfl rfl ?_ ⟨fun n hn => ?_, Nat.le_of_succ_le hleft⟩
    · rw [hgranted]
      exact Nat.lt_succ_self _
    · obtain rfl := Option.some.inj hn
      exact ⟨hcycle, hcount hgoesOn⟩
  · refine .worked rfl rfl rfl ?_ (fits_enter ?_)
    · rw [granted_enter, hgranted]
      exact Nat.succ_pos _
    · obtain ⟨hbatch, hregisters, hgoesOn⟩ :=
        finish_cases work ⟨m.cycle.machine, m.cycle.answer, noted ++ m.cycle.events⟩
      refine keeps_afterRequest (hbatch.trans hcycle) fun state hstate hterminal => ?_
      rw [hregisters]
      exact hcount (hgoesOn state hstate hterminal)

theorem ticked_take {b : Nat} (h : μ.Fits b) {s : Session} (hstage : μ.stage = .waiting s)
    {answer : Reply} {script : List Reply} (hscript : μ.script = answer :: script) :
    Ticked b μ (μ.take s answer script) := by
  have hgranted : μ.granted = 0 := by rw [granted, hstage]
  obtain ⟨hsize, hexecuted⟩ := h.machine s.machine (by rw [hstage]; rfl)
  have hreply : (∀ text, answer = .line text → s.work? text = none) →
      Keeps b μ.attempted (s.reply answer) := by
    intro hwork
    rw [← hsize, ← hexecuted]
    exact keeps_reply hwork
  cases answer with
  | interrupt =>
    exact .took hscript hgranted rfl rfl rfl (Nat.zero_le _)
      (fits_enter (hreply fun _ htext => by cases htext))
  | line text =>
    unfold take
    dsimp only
    split
    · next work hwork =>
      obtain ⟨hpos, hle, -⟩ := reply_of_work hwork
      rw [hsize] at hle
      refine .took hscript hgranted rfl rfl rfl ?_ ⟨fun n hn => ?_, ?_⟩
      · show work.cycles - 1 + 1 ≤ b * 1
        omega
      · obtain rfl := Option.some.inj hn
        exact ⟨hsize, hexecuted⟩
      · show work.cycles - 1 + 1 ≤ b
        omega
    · next hwork =>
      refine .took hscript hgranted rfl rfl rfl ?_ (fits_enter (hreply fun other hother => ?_))
      · rw [granted_enter]
        exact Nat.zero_le _
      · obtain rfl := Reply.line.inj hother
        exact hwork

/-- **What a tick can do.** -/
theorem ticked {b : Nat} (h : μ.Fits b) : Ticked b μ μ.tick := by
  unfold tick
  split
  · next ending hstage => exact .idle ⟨ending, hstage⟩ rfl
  · next hstage => exact ticked_attempt h hstage
  · next hstage =>
    split
    · next hscript => exact .closed hscript ⟨_, rfl⟩ hscript rfl rfl
    · next hscript => exact ticked_take h hstage hscript

/-! ### What all moments of a session are like -/

/-- A moment of a session with a script and with batches of `b`: it has read some answers, and no
cycle is attempted that a line among them has not granted. -/
structure Within (b : Nat) (script : List Reply) (μ : Moment) : Prop where
  fits : μ.Fits b
  read : ∃ read, script = read ++ μ.script ∧ μ.taken = lineCount read
  earned : μ.attempted + μ.granted ≤ b * μ.taken

theorem granted_of_isOver (h : μ.IsOver) : μ.granted = 0 := by
  obtain ⟨ending, hstage⟩ := h
  rw [granted, hstage]

theorem fits_of_isOver {b : Nat} (h : μ.IsOver) : μ.Fits b := by
  refine ⟨fun m hm => ?_, ?_⟩
  · obtain ⟨ending, hstage⟩ := h
    rw [hstage] at hm
    cases hm
  · rw [granted_of_isOver h]
    exact Nat.zero_le b

theorem within_begin {b : Nat} {turn : Turn Next} (h : Keeps b 0 turn) (script : List Reply) :
    (begin turn script).Within b script := by
  have hbegin : begin turn script = (⟨.of turn.next, script, [], 0, 0⟩ : Moment).enter turn := rfl
  refine ⟨?_, ⟨[], rfl, rfl⟩, ?_⟩
  · rw [hbegin]
    exact fits_enter h
  · rw [hbegin, granted_enter]
    exact Nat.zero_le _

theorem Within.tick {b : Nat} {script : List Reply} (h : μ.Within b script) :
    μ.tick.Within b script := by
  obtain ⟨read, hread, htaken⟩ := h.read
  have hearned := h.earned
  cases ticked h.fits with
  | idle ended same =>
    rw [same]
    exact h
  | closed script_eq ended script_eq' taken attempted =>
    refine ⟨fits_of_isOver ended, ⟨read, ?_, taken.trans htaken⟩, ?_⟩
    · rw [script_eq', ← script_eq]
      exact hread
    · rw [granted_of_isOver ended, taken, attempted]
      omega
  | @took answer rest script_eq waiting script_eq' taken attempted granted fits =>
    refine ⟨fits, ⟨read ++ [answer], ?_, ?_⟩, ?_⟩
    · rw [hread, script_eq, script_eq', List.append_assoc]
      rfl
    · rw [taken, htaken, lineCount, lineCount, lineCount, List.countP_append]
    · rw [attempted, taken, Nat.mul_add]
      omega
  | worked script_eq taken attempted granted fits =>
    refine ⟨fits, ⟨read, script_eq ▸ hread, taken.trans htaken⟩, ?_⟩
    rw [attempted, taken]
    omega

theorem Within.later {b : Nat} {script : List Reply} (h : μ.Within b script) (n : Nat) :
    (μ.later n).Within b script := by
  induction n with
  | zero => exact h
  | succ n ih =>
    rw [later_succ]
    exact ih.tick

/-! ### The end -/

/-- How many ticks there are at most before a session with batches of `b` is over. -/
def budget (b : Nat) (μ : Moment) : Nat :=
  match μ.stage with
  | .ended _ => 0
  | _ => (b + 1) * μ.script.length + μ.granted + 1

theorem budget_le (b : Nat) (μ : Moment) :
    μ.budget b ≤ (b + 1) * μ.script.length + μ.granted + 1 := by
  unfold budget
  split
  · exact Nat.zero_le _
  · exact Nat.le_refl _

theorem budget_of_not_isOver {b : Nat} (h : ¬ μ.IsOver) :
    μ.budget b = (b + 1) * μ.script.length + μ.granted + 1 := by
  unfold budget
  split
  · next ending hstage => exact absurd ⟨ending, hstage⟩ h
  · rfl

/-- **A tick lowers the budget of a session that is not over.** -/
theorem budget_tick {b : Nat} (h : μ.Fits b) (hover : ¬ μ.IsOver) :
    μ.tick.budget b < μ.budget b := by
  have hle := budget_le b μ.tick
  rw [budget_of_not_isOver hover]
  cases ticked h with
  | idle ended => exact absurd ended hover
  | closed _ ended =>
    obtain ⟨ending, hstage⟩ := ended
    rw [budget, hstage]
    exact Nat.succ_pos _
  | @took answer rest script_eq _ script_eq' _ _ granted =>
    have hcount : lineCount [answer] ≤ 1 := List.countP_le_length
    have hgranted : μ.tick.granted ≤ b := calc
      μ.tick.granted ≤ b * lineCount [answer] := granted
      _ ≤ b * 1 := Nat.mul_le_mul_left b hcount
      _ = b := Nat.mul_one b
    have hlength : (b + 1) * (rest.length + 1) = (b + 1) * rest.length + (b + 1) := Nat.mul_succ _ _
    rw [script_eq'] at hle
    rw [script_eq, List.length_cons, hlength]
    omega
  | worked script_eq _ _ granted =>
    rw [script_eq] at hle
    omega

theorem later_of_isOver (h : μ.IsOver) (n : Nat) : μ.later n = μ := by
  induction n with
  | zero => rfl
  | succ n ih =>
    obtain ⟨ending, hstage⟩ := h
    rw [later_succ, ih, Moment.tick, hstage]

theorem isOver_later {b n : Nat} {script : List Reply} (h : μ.Within b script)
    (hbudget : μ.budget b ≤ n) : (μ.later n).IsOver := by
  induction n generalizing μ with
  | zero =>
    by_contra hover
    have hpos := budget_of_not_isOver (b := b) hover
    change μ.budget b = _ at hpos
    omega
  | succ n ih =>
    by_cases hover : μ.IsOver
    · rw [later_of_isOver hover]
      exact hover
    · have hless := budget_tick h.fits hover
      exact ih h.tick (by omega)

/-- When no answer is left, only those cycles are attempted that are granted already. -/
theorem attempted_later_le {b : Nat} {script : List Reply} (h : μ.Within b script)
    (hscript : μ.script = []) (n : Nat) :
    (μ.later n).script = [] ∧
      (μ.later n).attempted + (μ.later n).granted ≤ μ.attempted + μ.granted := by
  induction n with
  | zero => exact ⟨hscript, Nat.le_refl _⟩
  | succ n ih =>
    obtain ⟨hempty, hle⟩ := ih
    rw [later_succ]
    cases ticked (h.later n).fits with
    | idle _ same =>
      rw [same]
      exact ⟨hempty, hle⟩
    | closed _ ended script_eq _ attempted =>
      refine ⟨script_eq, ?_⟩
      rw [granted_of_isOver ended, attempted]
      omega
    | took script_eq =>
      rw [hempty] at script_eq
      cases script_eq
    | worked script_eq _ attempted granted =>
      refine ⟨script_eq.trans hempty, ?_⟩
      rw [attempted]
      omega

end Moment

/-- **A session ends, and how long it works is bounded by what it reads.**  A program file is named,
and loads; its program may never end.  With batches of `b` the session is over after `b + 1` ticks
for every answer and one more, and has said and come to what the session does.  At no moment has it
attempted more cycles than `b` for every line it has taken so far, those of the batch in hand
included; and once it has taken all answers it attempts only those that are left of this batch.  The
machine of a session that is not over has executed an instruction in every cycle that was
attempted. -/
theorem ends_within {files : Files} {answers script : List Reply} {asked : List Utterance}
    {name : String} (hnames : Names o answers asked name script) {size : { n : Nat // 0 < n }}
    (hsize : o.batchSize = some size) {lines : List String} {event : Event}
    (hread : Program.read name (files.read (Path.ofString name)) = .ok (lines, event))
    (hroom : lines.length ≤ Memory.standardSize) :
    let start := Moment.begin (opening o size lines event) script
    let session := playAll o files answers
    let last := start.later ((size.1 + 1) * script.length + 1)
    last.stage = .ended session.next ∧ asked ++ last.said = session.said ∧
    last.attempted ≤ size.1 * last.taken ∧ last.taken ≤ Moment.lineCount script ∧
    ∀ n, let μ := start.later n
      (∃ read, script = read ++ μ.script ∧ μ.taken = Moment.lineCount read) ∧
      μ.attempted + μ.granted ≤ size.1 * μ.taken ∧ μ.granted ≤ size.1 ∧
      (∀ m, μ.stage.machine? = some m → m.registers.executed = μ.attempted) ∧
      (μ.script = [] → ∀ k, (start.later (n + k)).attempted ≤ μ.attempted + μ.granted) := by
  intro start session last
  have hsession : session = ⟨asked ++ (play (opening o size lines event) script).said,
      (play (opening o size lines event) script).next⟩ :=
    playAll_of_loads hnames hsize hread hroom
  obtain ⟨-, -, hbatches, hnone⟩ := programmed_loaded o size hroom
  have hkeeps : Keeps size.1 0 (opening o size lines event) := by
    rw [← hbatches, ← hnone]
    exact keeps_askCommand o _ _
  have hstart : start.Within size.1 script := Moment.within_begin hkeeps script
  have hbudget : start.budget size.1 ≤ (size.1 + 1) * script.length + 1 := Nat.le_refl _
  have hlast : last.Within size.1 script := hstart.later _
  -- nothing is left to be said when the session is over
  obtain ⟨ending, hover⟩ := Moment.isOver_later hstart hbudget
  have houtcome : (⟨last.said, ending⟩ : Turn Ending) =
      play (opening o size lines event) script := by
    rw [← Moment.outcome_begin, ← Moment.outcome_later start ((size.1 + 1) * script.length + 1)]
    show _ = last.outcome
    rw [Moment.outcome, hover]
    simp [Moment.rest]
  rw [← houtcome] at hsession
  obtain ⟨read, hread, htaken⟩ := hlast.read
  refine ⟨?_, ?_, ?_, ?_, fun n => ?_⟩
  · rw [hsession]
    exact hover
  · rw [hsession]
  · have hearned := hlast.earned
    omega
  · rw [htaken, hread, Moment.lineCount, Moment.lineCount, List.countP_append]
    exact Nat.le_add_right _ _
  · intro μ
    have hμ : μ.Within size.1 script := hstart.later n
    refine ⟨hμ.read, hμ.earned, hμ.fits.granted, fun m hm => (hμ.fits.machine m hm).2,
      fun hempty k => ?_⟩
    rw [Moment.later_add]
    exact Nat.le_trans (Nat.le_add_right _ _) (Moment.attempted_later_le hμ hempty k).2

/-- A run that is continued once, and then the end of input. -/
def continuedOnce : List Reply := [.line "a", .line "y"]

theorem next_continuedOnce : (playAll inPairs looping continuedOnce).next = .exit 0 := by
  have hnames : Names inPairs continuedOnce [] "p" continuedOnce := .option rfl _
  rw [playAll_of_loads hnames rfl read_looping (by decide), opening, loaded_eq _ _ (by decide)]
  decide +kernel

theorem ends_within_looping :
    (Names inPairs continuedOnce [] "p" continuedOnce ∧ inPairs.batchSize = some pair ∧
      Program.read "p" (looping.read (Path.ofString "p")) = .ok (["JMP 0"], .programRead 1 "p") ∧
      (["JMP 0"].length : Int) ≤ Memory.standardSize) ∧
    (Moment.later (.begin (opening inPairs pair ["JMP 0"] (.programRead 1 "p")) continuedOnce)
      ((pair.1 + 1) * continuedOnce.length + 1)).stage = .ended (.exit 0) ∧
    (Moment.later (.begin (opening inPairs pair ["JMP 0"] (.programRead 1 "p")) continuedOnce)
      ((pair.1 + 1) * continuedOnce.length + 1)).attempted ≤ 4 := by
  have hnames : Names inPairs continuedOnce [] "p" continuedOnce := .option rfl _
  have hroom : (["JMP 0"].length : Int) ≤ Memory.standardSize := by decide
  have hfour : ∀ attempted taken : Nat, attempted ≤ pair.1 * taken →
      taken ≤ Moment.lineCount continuedOnce → attempted ≤ 4 := fun _ _ hattempted htaken =>
    Nat.le_trans hattempted (Nat.mul_le_mul_left 2 htaken)
  obtain ⟨hover, -, hattempted, htaken, -⟩ := ends_within hnames rfl read_looping hroom
  exact ⟨⟨hnames, rfl, read_looping, hroom⟩, hover.trans (congrArg Stage.ended next_continuedOnce),
    hfour _ _ hattempted htaken⟩

end Session

end Accumulator
