import Accumulator.Proofs.Opening
import Accumulator.Proofs.Screen

/-!
# What a session asks of its machine

A session in which no numeral is too long is a dialogue with its machine, and what the dialogue
says stands on its screen (`follows_dialogue`).  Two readers share the answers, the session and the
run it has begun.  The induction for the run is on the answers (`reading_afterRequest`), and says
which of them it has read when it ends; the induction for the session is on how many are left
(`told`).
-/

namespace Accumulator

/-- Whether it is an event, which is for the journal and not said aloud. -/
def Utterance.isNote : Utterance → Bool
  | note _ => true
  | _ => false

namespace Session

variable {o : Options} {m : Machine}

/-! ### What is said aloud -/

/-- What is said aloud. -/
def aloud (said : List Utterance) : List Utterance := said.filter fun u => !u.isNote

theorem aloud_append (said later : List Utterance) :
    aloud (said ++ later) = aloud said ++ aloud later := List.filter_append said later

theorem aloud_notes (events : Array Event) : aloud (notes events) = [] := by
  simp [aloud, notes, Utterance.isNote]

theorem aloud_farewell (o : Options) (m : Machine) : aloud (farewell o m) = farewell o m := by
  unfold farewell
  split
  · rfl
  · rfl

theorem aloud_prompt : aloud prompt = prompt := rfl

/-- What is not said aloud is not on the screen. -/
theorem screen_aloud (said : List Utterance) :
    Utterance.screen (aloud said) = Utterance.screen said := by
  induction said with
  | nil => rfl
  | cons u said ih =>
    have hcons : Utterance.screen (u :: said) = u.outputs ++ Utterance.screen said :=
      List.flatMap_cons
    cases u with
    | note event => exact ih
    | _ => exact (congrArg _ ih).trans hcons.symm

/-! ### Requests that are carried out -/

/-- What a request leads to when it has been dumped. -/
def conclude (o : Options) (m : Machine) : State → Turn Next
  | .halted => leave o m [.terminated] .done
  | .faulted => leave o m (m.fault.toList.map .faulted) .faulted
  | _ => askCommand o m []

/-- Whether a session ends without a failure that it does not deal with. -/
def Settles (session : Turn Ending) : Prop := ∀ failure, session.next ≠ .escape failure

/-- A session after a request that has no question. -/
theorem play_afterRequest {report : Report Overlong State}
    (hasked : report.answer ≠ .ok .awaitingContinue) {script : List Reply}
    (h : Settles (play (afterRequest o report) script)) :
    ∃ state text, report.answer = .ok state ∧ dump o report.machine.snapshot = .ok text ∧
      afterRequest o report = ⟨notes report.events ++ .dump report.machine.snapshot text ::
        (conclude o report.machine state).said, (conclude o report.machine state).next⟩ := by
  unfold afterRequest at h ⊢
  dsimp only at h ⊢
  cases hanswer : report.answer with
  | error error =>
    rw [hanswer] at h
    simp only [play_done] at h
    exact absurd rfl (h _)
  | ok state =>
    rw [hanswer] at h hasked
    cases hdump : dump o report.machine.snapshot with
    | error error =>
      rw [hdump] at h
      simp only [play_done] at h
      exact absurd rfl (h _)
    | ok text =>
      refine ⟨state, text, rfl, rfl, ?_⟩
      cases state with
      | awaitingContinue => exact absurd rfl hasked
      | _ => simp [conclude, leave, askCommand]

/-! ### Runs that take their answers from the script -/

/-- A session with a run that was begun: the lines that it takes for its questions, what is left of
the script and what the session comes to.  The run has all its answers, or the user breaks off at
the last of its questions. -/
inductive Reading (o : Options) (run : Run) (lines : List String) (rest : List Reply)
    (session : Turn Ending) : Prop
  | answered {offered : List Utterance} {text : String} {state : State}
      (taken : run.shown.size = lines.length ∨ rest = [] ∧ run.shown.size = lines.length + 1)
      (offers : Offers o run.shown.toList offered) (answer : run.report.answer = .ok state)
      (dumped : dump o run.report.machine.snapshot = .ok text)
      (said : aloud session.said = offered ++ .dump run.report.machine.snapshot text ::
        aloud (play (conclude o run.report.machine state) rest).said)
      (next : session.next = (play (conclude o run.report.machine state) rest).next)
  | brokenOff {offered : List Utterance} {later : List Reply} (rest_eq : rest = .interrupt :: later)
      (taken : run.shown.size = lines.length + 1) (offers : Offers o run.shown.toList offered)
      (said : aloud session.said = offered) (next : session.next = .interrupted)

/-- What a run comes to whose first question is asked before another run, `next`. -/
theorem Reading.cons {run next : Run} {line : String} {lines : List String} {rest : List Reply}
    {session later : Turn Ending} {s : Snapshot} {text : String}
    (h : Reading o next lines rest later) (hmachine : run.report.machine = next.report.machine)
    (hanswer : run.report.answer = next.report.answer) (hshown : run.shown = #[s] ++ next.shown)
    (hdump : dump o s = .ok text)
    (hsaid : aloud session.said = .dump s text :: .ask .continuation :: aloud later.said)
    (hnext : session.next = later.next) : Reading o run (line :: lines) rest session := by
  have hsize : run.shown.size = next.shown.size + 1 := by
    rw [hshown, Array.size_append, Nat.add_comm]
    rfl
  have hlist : run.shown.toList = s :: next.shown.toList := by
    rw [hshown, Array.toList_append]
    rfl
  cases h with
  | @answered offered _ state taken offers answer dumped said next =>
    have hoffers : Offers o run.shown.toList (.dump s text :: .ask .continuation :: offered) := by
      rw [hlist]
      exact .cons hdump offers
    refine .answered ?_ hoffers (hanswer.trans answer) (hmachine ▸ dumped) ?_ ?_
    · rw [hsize, List.length_cons]
      exact taken.imp (congrArg Nat.succ) fun h => ⟨h.1, congrArg Nat.succ h.2⟩
    · rw [hsaid, said, hmachine]
      rfl
    · rw [hnext, next, hmachine]
  | brokenOff rest_eq taken offers said next =>
    refine .brokenOff rest_eq ?_ ?_ hsaid (hnext.trans next)
    · rw [hsize, taken]
      rfl
    · rw [hlist, said]
      exact .cons hdump offers

/-- The end of input is a no to the question whether to go on with a run. -/
theorem close_continuation (o : Options) (m : Machine) :
    (⟨o, m, .continuation⟩ : Session).close = play (afterRequest o m.stopRun) [] := by
  unfold close decide afterRequest
  simp only [Bool.false_eq_true, ↓reduceIte]
  cases dump o m.stopRun.machine.snapshot with
  | error error => rfl
  | ok text => simp [Machine.stopRun, askCommand, play, close]

/-- A session after a request that asks whether to go on. -/
theorem play_afterRequest_of_asked {report : Report Overlong State}
    (hasked : report.answer = .ok .awaitingContinue) {script : List Reply}
    (h : Settles (play (afterRequest o report) script)) :
    ∃ text, dump o report.machine.snapshot = .ok text ∧
      afterRequest o report =
        ⟨notes report.events ++ [.dump report.machine.snapshot text, .ask .continuation],
          .wait ⟨o, report.machine, .continuation⟩⟩ := by
  unfold afterRequest at h ⊢
  dsimp only at h ⊢
  rw [hasked] at h ⊢
  cases hdump : dump o report.machine.snapshot with
  | error error =>
    rw [hdump] at h
    simp only [play_done] at h
    exact absurd rfl (h _)
  | ok text => exact ⟨text, rfl, by simp⟩

/-- A run that has its last answer, with the request that comes of it. -/
theorem Reading.of_play {run : Run} {lines : List String} {rest : List Reply}
    {session : Turn Ending} {offered : List Utterance} {report : Report Overlong State}
    (hmachine : run.report.machine = report.machine) (hanswer : run.report.answer = report.answer)
    (hasked : report.answer ≠ .ok .awaitingContinue)
    (taken : run.shown.size = lines.length ∨ rest = [] ∧ run.shown.size = lines.length + 1)
    (offers : Offers o run.shown.toList offered)
    (hsettles : Settles (play (afterRequest o report) rest))
    (hsaid : aloud session.said = offered ++ aloud (play (afterRequest o report) rest).said)
    (hnext : session.next = (play (afterRequest o report) rest).next) :
    Reading o run lines rest session := by
  obtain ⟨state, text, hstate, hdump, hturn⟩ := play_afterRequest hasked hsettles
  have hplay := play_append (notes report.events ++ [.dump report.machine.snapshot text])
    (conclude o report.machine state).said (conclude o report.machine state).next rest
  rw [List.append_assoc, List.singleton_append, ← hturn] at hplay
  refine .answered taken offers (hanswer.trans hstate) (hmachine ▸ hdump) ?_ ?_
  · rw [hsaid, hplay, aloud_append, aloud_append, aloud_notes, hmachine]
    rfl
  · rw [hnext, hplay, hmachine]

/-- A run that asks nothing. -/
theorem Reading.unasked {size : Nat} {report : Report Overlong State} {script : List Reply}
    (hasked : report.answer ≠ .ok .awaitingContinue)
    (h : Settles (play (afterRequest o report) script)) :
    Reading o (Machine.continueRun size report #[] []) [] script
      (play (afterRequest o report) script) := by
  rw [Machine.continueRun_of_ne hasked]
  exact .of_play rfl rfl hasked (Or.inl rfl) .nil h rfl rfl

/-- A run that is stopped at its first question. -/
theorem Reading.stopped {size : Nat} {report : Report Overlong State} {text : String}
    {lines : List String} {rest : List Reply} {session : Turn Ending}
    (hasked : report.answer = .ok .awaitingContinue)
    (hdump : dump o report.machine.snapshot = .ok text)
    (hlines : (lines.map saysYes).head? ≠ some true)
    (taken : lines.length = 1 ∨ rest = [] ∧ lines.length = 0)
    (hsettles : Settles (play (afterRequest o report.machine.stopRun) rest))
    (hsaid : aloud session.said = [.dump report.machine.snapshot text, .ask .continuation] ++
      aloud (play (afterRequest o report.machine.stopRun) rest).said)
    (hnext : session.next = (play (afterRequest o report.machine.stopRun) rest).next) :
    Reading o (Machine.continueRun size report #[] (lines.map saysYes)) lines rest session := by
  obtain ⟨hmachine, hanswer, hshown⟩ :=
    Machine.continueRun_of_stopped size hasked hlines
  have hstopped : report.machine.stopRun.answer ≠ .ok .awaitingContinue := by
    simp [Machine.stopRun]
  refine .of_play hmachine hanswer hstopped ?_ ?_ hsettles hsaid hnext
  · rw [hshown]
    exact taken.imp (fun h => h.symm) fun h => ⟨h.1, by rw [h.2]; rfl⟩
  · rw [hshown]
    exact .cons hdump .nil

theorem aloud_asked (events : Array Event) (s : Snapshot) (text : String)
    (said : List Utterance) :
    aloud (notes events ++ [.dump s text, .ask .continuation] ++ said) =
      .dump s text :: .ask .continuation :: aloud said := by
  rw [aloud_append, aloud_append, aloud_notes]
  rfl

/-- **A run takes its answers from the script.** -/
theorem reading_afterRequest {size : Nat} {script : List Reply} {report : Report Overlong State}
    (hsize : report.machine.batchSize = size)
    (h : Settles (play (afterRequest o report) script)) :
    ∃ lines rest, script = lines.map .line ++ rest ∧
      Reading o (Machine.continueRun size report #[] (lines.map saysYes)) lines rest
        (play (afterRequest o report) script) := by
  induction script generalizing report with
  | nil =>
    refine ⟨[], [], rfl, ?_⟩
    by_cases hasked : report.answer = .ok .awaitingContinue
    · obtain ⟨text, hdump, hturn⟩ := play_afterRequest_of_asked hasked h
      rw [hturn, play_nil, close_continuation] at h ⊢
      exact .stopped hasked hdump (by simp) (Or.inr ⟨rfl, rfl⟩) h (aloud_asked _ _ _ _) rfl
    · exact .unasked hasked h
  | cons answer script ih =>
    by_cases hasked : report.answer = .ok .awaitingContinue
    · obtain ⟨text, hdump, hturn⟩ := play_afterRequest_of_asked hasked h
      rw [hturn, play_cons] at h ⊢
      cases answer with
      | interrupt =>
        rw [play_reply_interrupt] at h ⊢
        have hshown : (Machine.continueRun size report #[] []).shown = _ :=
          (Machine.continueRun_of_stopped size hasked (by simp)).2.2
        have hoffers : Offers o (Machine.continueRun size report #[] []).shown.toList
            [.dump report.machine.snapshot text, .ask .continuation] := by
          rw [hshown]
          exact .cons hdump .nil
        refine ⟨[], .interrupt :: script, rfl, .brokenOff rfl ?_ hoffers ?_ rfl⟩
        · rw [List.map_nil, hshown]
          rfl
        · exact aloud_asked _ _ _ _
      | line line =>
        have hreply : (⟨o, report.machine, .continuation⟩ : Session).reply (.line line) =
            afterRequest o (if saysYes line then report.machine.batch report.machine.batchSize
              else report.machine.stopRun) := rfl
        rw [hreply, hsize] at h ⊢
        cases hyes : saysYes line with
        | false =>
          rw [hyes] at h
          refine ⟨[line], script, rfl, ?_⟩
          exact .stopped hasked hdump (by simp [hyes]) (Or.inl rfl) h (aloud_asked _ _ _ _) rfl
        | true =>
          rw [hyes, if_pos rfl] at h
          rw [if_pos rfl]
          have hbatch : (report.machine.batch size).machine.batchSize = size :=
            (report.machine.batchSize_batch size).trans hsize
          obtain ⟨lines, rest, hscript, hreading⟩ := ih hbatch h
          obtain ⟨hmachine, hanswer, hshown⟩ :=
            Machine.continueRun_of_continued size hasked (lines.map saysYes)
          refine ⟨line :: lines, rest, by rw [hscript]; rfl, ?_⟩
          rw [List.map_cons, hyes]
          exact hreading.cons hmachine hanswer hshown hdump (aloud_asked _ _ _ _) rfl
    · exact ⟨[], answer :: script, rfl, .unasked hasked h⟩

/-! ### Sessions -/

/-- What is said after a dialogue: nothing if the user has broken off. -/
def afterword (o : Options) (last : Machine) (ending : Ending) : List Utterance :=
  if ending = .interrupted then [] else farewell o last

/-- Whether a session with a machine and a script is a dialogue. -/
def Told (o : Options) (m : Machine) (script : List Reply) (session : Turn Ending) : Prop :=
  ∃ calls said last, Dialogue o m script calls said last session.next ∧
    aloud session.said = said ++ afterword o last session.next

/-- A session that begins with a command that is carried out is a dialogue if what follows it
is. -/
theorem told_of_call (hm : m.Programmed) {script rest : List Reply} {request : Execution}
    {said : List Utterance} (call : Call o m script request said rest) {state : State}
    (hanswer : (m.perform request).answer = .ok state) {session : Turn Ending}
    (hsaid : aloud session.said = prompt ++
      (said ++ aloud (play (conclude o (m.perform request).machine state) rest).said))
    (hnext : session.next = (play (conclude o (m.perform request).machine state) rest).next)
    (hlater : (m.perform request).machine.state.isTerminal = false →
      Settles (play (askCommand o (m.perform request).machine []) rest) →
      Told o (m.perform request).machine rest
        (play (askCommand o (m.perform request).machine []) rest))
    (hsettles : Settles session) : Told o m script session := by
  have hperformed : (m.perform request).machine.Orderly := (hm.perform request).orderly
  obtain ⟨hstate, hmem⟩ : (m.perform request).machine.state = state ∧
      state ∈ [.ready, .stopped, .halted, .faulted] := by
    rcases m.answer_perform request with ⟨hok, hmem⟩ | ⟨error, herror, -⟩
    · obtain rfl := Except.ok.inj (hok.symm.trans hanswer)
      exact ⟨rfl, hmem⟩
    · cases herror.symm.trans hanswer
  generalize hn : (m.perform request).machine = n at *
  have hgoesOn : conclude o n state = askCommand o n [] → n.state.isTerminal = false →
      Told o m script session := by
    intro hconclude hrunning
    rw [hconclude] at hsaid hnext
    have hrest : Settles (play (askCommand o n []) rest) := fun failure => by
      rw [← hnext]
      exact hsettles failure
    obtain ⟨calls, saidLater, last, hdialogue, haloud⟩ := hlater hrunning hrest
    refine ⟨request :: calls, prompt ++ (said ++ saidLater), last, ?_, ?_⟩
    · rw [hnext]
      subst hn
      exact .carriedOut call hrunning hdialogue
    · rw [hsaid, haloud, hnext]
      simp only [List.append_assoc]
  simp only [List.mem_cons, List.not_mem_nil, or_false] at hmem
  rcases hmem with rfl | rfl | rfl | rfl
  · exact hgoesOn rfl (by rw [hstate]; rfl)
  · exact hgoesOn rfl (by rw [hstate]; rfl)
  · have hleave : play (conclude o n .halted) rest = ⟨[.terminated] ++ farewell o n, .done⟩ :=
      play_done _ _ rest
    rw [hleave] at hsaid hnext
    refine ⟨[request], prompt ++ (said ++ [.terminated]), n, ?_, ?_⟩
    · rw [hnext]
      subst hn
      exact .halted call hstate
    · rw [hsaid, hnext, aloud_append, aloud_farewell]
      simp [afterword, aloud, Utterance.isNote, Ending.done, Ending.interrupted]
  · obtain ⟨fault, hfault⟩ := hperformed.faulted_iff.1 hstate
    have hleave : play (conclude o n .faulted) rest =
        ⟨[.faulted fault] ++ farewell o n, .faulted⟩ := by
      rw [conclude, hfault]
      exact play_done _ _ rest
    rw [hleave] at hsaid hnext
    refine ⟨[request], prompt ++ (said ++ [.faulted fault]), n, ?_, ?_⟩
    · rw [hnext]
      subst hn
      exact .faulted call hstate hfault
    · rw [hsaid, hnext, aloud_append, aloud_farewell]
      simp [afterword, aloud, Utterance.isNote, Ending.faulted, Ending.interrupted]

theorem told_of_reading (hm : m.Programmed) {command : String} {lines : List String}
    {request : Execution} (orders : Orders command lines request) {run : Run}
    (hreport : run.report = m.perform request) (hshown : run.shown = m.shown request)
    {rest : List Reply} {session whole : Turn Ending} (hreading : Reading o run lines rest session)
    (hsettles : Settles session) (hsaid : aloud whole.said = prompt ++ aloud session.said)
    (hnext : whole.next = session.next)
    (hlater : ∀ n : Machine, n.Programmed → n.state.isTerminal = false →
      Settles (play (askCommand o n []) rest) → Told o n rest (play (askCommand o n []) rest)) :
    Told o m (.line command :: (lines.map .line ++ rest)) whole := by
  cases hreading with
  | @brokenOff offered _ rest_eq taken offers said next =>
    rw [hshown] at taken offers
    refine ⟨[], prompt ++ offered, m, ?_, ?_⟩
    · rw [hnext, next, rest_eq]
      exact .brokenRun orders taken offers _
    · rw [hsaid, said, afterword, if_pos (hnext.trans next), List.append_nil]
  | answered taken offers answer dumped said next =>
    rw [hshown] at taken offers
    rw [hreport] at answer dumped said next
    refine told_of_call hm (.intro orders taken offers dumped) answer ?_ (hnext.trans next)
      (hlater _ (hm.perform request)) fun failure => ?_
    · rw [hsaid, said]
      simp only [List.append_assoc, List.singleton_append]
    · rw [hnext]
      exact hsettles failure

/-- What the words of a line stand for. -/
theorem ofLine?_cases (line : String) :
    (Command.ofLine? line = some .step ∧ foldLine line ∈ ["s", "step"]) ∨
    (Command.ofLine? line = some .run ∧ foldLine line ∈ ["a", "run"]) ∨
    (Command.ofLine? line = some .quit ∧ foldLine line ∈ ["q", "quit"]) ∨
    (Command.ofLine? line = none ∧
      foldLine line ∉ ["s", "step", "a", "run", "q", "quit"]) := by
  unfold Command.ofLine?
  generalize foldLine line = word
  by_cases hstep : word ∈ ["s", "step"]
  · exact Or.inl ⟨List.find?_cons_of_pos (by simpa [Command.words] using hstep), hstep⟩
  · rw [List.find?_cons_of_neg (by simpa [Command.words] using hstep)]
    by_cases hrun : word ∈ ["a", "run"]
    · exact Or.inr (Or.inl ⟨List.find?_cons_of_pos (by simpa [Command.words] using hrun), hrun⟩)
    · rw [List.find?_cons_of_neg (by simpa [Command.words] using hrun)]
      by_cases hquit : word ∈ ["q", "quit"]
      · refine Or.inr (Or.inr (Or.inl ⟨?_, hquit⟩))
        exact List.find?_cons_of_pos (by simpa [Command.words] using hquit)
      · refine Or.inr (Or.inr (Or.inr ⟨?_, ?_⟩))
        · rw [List.find?_cons_of_neg (by simpa [Command.words] using hquit)]
          rfl
        · simp_all

/-- **A session is a dialogue.** -/
theorem told (hm : m.Programmed) (hrunning : m.state.isTerminal = false) (script : List Reply)
    (h : Settles (play (askCommand o m []) script)) :
    Told o m script (play (askCommand o m []) script) := by
  induction hlength : script.length using Nat.strongRecOn generalizing m script with
  | ind n ih =>
    have hask : askCommand o m [] = ⟨prompt, .wait ⟨o, m, .command⟩⟩ := rfl
    rw [hask] at h ⊢
    cases script with
    | nil =>
      refine ⟨[], prompt, m, .endOfInput m, ?_⟩
      rw [play_nil, aloud_append, aloud_prompt]
      exact congrArg (prompt ++ ·) (aloud_farewell o m)
    | cons answer script =>
      rw [play_cons] at h ⊢
      cases answer with
      | interrupt =>
        rw [play_reply_interrupt]
        exact ⟨[], prompt, m, .brokenOff m script, rfl⟩
      | line line =>
        have hreply : (⟨o, m, .command⟩ : Session).reply (.line line) =
            obey o m (Command.ofLine? line) := rfl
        rw [hreply] at h ⊢
        -- what is left of the script is shorter
        have hlater : ∀ rest : List Reply, rest.length ≤ script.length → ∀ n : Machine,
            n.Programmed → n.state.isTerminal = false →
            Settles (play (askCommand o n []) rest) →
            Told o n rest (play (askCommand o n []) rest) := by
          intro rest hrest next hnext hgoesOn hsettles
          refine ih rest.length ?_ hnext hgoesOn rest hsettles rfl
          rw [← hlength, List.length_cons]
          omega
        rcases ofLine?_cases line with ⟨hcommand, hword⟩ | ⟨hcommand, hword⟩ |
          ⟨hcommand, hword⟩ | ⟨hcommand, hword⟩
        · rw [hcommand] at h ⊢
          have hasked : m.step.answer ≠ .ok .awaitingContinue := m.answer_step_ne hrunning
          have hreading : Reading o ⟨m.step, #[]⟩ [] script
              (play (obey o m (some .step)) script) :=
            .of_play rfl rfl hasked (Or.inl rfl) .nil h rfl rfl
          refine told_of_reading hm (.step hword) rfl rfl hreading h ?_ rfl
            (hlater script (Nat.le_refl _))
          rw [aloud_append, aloud_prompt]
        · rw [hcommand] at h ⊢
          have hbegun : m.beginRun m.batchSize = m.batch m.batchSize := by
            rw [Machine.beginRun, hrunning]
            rfl
          have hsize : (m.beginRun m.batchSize).machine.batchSize = m.batchSize := by
            rw [hbegun]
            exact m.batchSize_batch _
          obtain ⟨lines, rest, hscript, hreading⟩ := reading_afterRequest hsize h
          subst hscript
          refine told_of_reading hm (.run hword lines) rfl rfl hreading h ?_ rfl
            (hlater rest (by simp))
          rw [aloud_append, aloud_prompt]
          rfl
        · rw [hcommand, obey, leave, play_done]
          refine ⟨[], prompt, m, .quit m hword script, ?_⟩
          rw [aloud_append, aloud_prompt]
          exact congrArg (prompt ++ ·) (aloud_farewell o m)
        · rw [hcommand] at h ⊢
          have hobey : obey o m none = ⟨[.noCommand] ++ prompt, .wait ⟨o, m, .command⟩⟩ := rfl
          rw [hobey, play_append, ← hask] at h ⊢
          obtain ⟨calls, said, last, hdialogue, haloud⟩ :=
            hlater script (Nat.le_refl _) m hm hrunning h
          refine ⟨calls, prompt ++ .noCommand :: said, last, .refused hword hdialogue, ?_⟩
          rw [aloud_append, aloud_append, aloud_prompt, haloud]
          simp [aloud, Utterance.isNote]

theorem Names.aloud_asked {answers script : List Reply} {asked : List Utterance} {name : String}
    (h : Names o answers asked name script) : aloud asked = asked := by
  cases h <;> rfl

theorem Names.worded {answers script : List Reply} {asked : List Utterance} {name : String}
    (h : Names o answers asked name script) : Worded o asked := by
  cases h with
  | option => exact .nil
  | answer => exact .of_prints .askFile

theorem worded_afterword (o : Options) (last : Machine) (ending : Ending) :
    Worded o (afterword o last ending) := by
  unfold afterword
  split
  · exact .nil
  · exact worded_farewell o last

/-- What was noted while the program was loaded is not said aloud. -/
theorem aloud_opening (o : Options) (size : { n : Nat // 0 < n }) (lines : List String)
    (event : Event) (script : List Reply) :
    aloud (play (opening o size lines event) script).said =
        aloud (play (askCommand o (loaded o size lines) []) script).said ∧
      (play (opening o size lines event) script).next =
        (play (askCommand o (loaded o size lines) []) script).next := by
  have happend := play_append
    (.note event :: notes ((Machine.blank size.1 size.2).load (lines.map .text)).events) prompt
    (.wait ⟨o, loaded o size lines, .command⟩) script
  have hopening : opening o size lines event =
      ⟨.note event :: notes ((Machine.blank size.1 size.2).load (lines.map .text)).events ++ prompt,
        .wait ⟨o, loaded o size lines, .command⟩⟩ := rfl
  rw [hopening, happend, aloud_append]
  refine ⟨?_, rfl⟩
  have hnotes : aloud (.note event ::
      notes ((Machine.blank size.1 size.2).load (lines.map .text)).events) = [] := aloud_notes _
  rw [hnotes]
  rfl

/-- A run that is continued once and then stopped, a line that is no command, and a step. -/
def twiceThenOnce : List Reply := [.line " A ", .line "Yes", .line "n", .line "go on", .line "s"]

theorem next_twiceThenOnce : (playAll inPairs looping twiceThenOnce).next = .exit 0 := by
  have hnames : Names inPairs twiceThenOnce [] "p" twiceThenOnce := .option rfl _
  rw [playAll_of_loads hnames rfl read_looping (by decide), opening, loaded_eq _ _ (by decide)]
  decide +kernel

end Session

end Accumulator
