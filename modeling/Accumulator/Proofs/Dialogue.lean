import Accumulator.Proofs.Lockstep
import Accumulator.Session.Script

/-!
# Dialogues with a machine

A `Dialogue` is a session told in terms of requests to the machine.  Each line that is typed as a
command is one request, is none and is refused, or ends the session.  A run takes the lines behind
its command as the answers to its questions, as many as it asks, and the end of input counts as a
no; what lies behind them is read as commands again.

No request is made of a machine that has come to its end (`Dialogue.isTerminal_after`), there is a
dump for each request and each question whether to go on (`Dialogue.counts`), and the ending tells
how the machine was left (`Dialogue.ends`).  A script has one dialogue (`Dialogue.unique`): how many
lines a run takes does not depend on what lies behind them, since the snapshots that it shows do not
(`Orders.shown_append`).
-/

namespace Accumulator

namespace Utterance

/-- Whether it is a dump. -/
def isDump : Utterance → Bool
  | dump _ _ => true
  | _ => false

/-- Whether it is the question whether to go on with a run. -/
def asksToContinue : Utterance → Bool
  | ask .continuation => true
  | _ => false

/-- Whether it says that the program has come to its end. -/
def concludes : Utterance → Bool
  | terminated | faulted _ => true
  | _ => false

end Utterance

namespace Session

variable {o : Options} {m : Machine}

/-! ### Dialogues -/

/-- What is said while snapshots are offered: each is dumped, and then the question is asked whether
to go on. -/
inductive Offers (o : Options) : List Snapshot → List Utterance → Prop
  | nil : Offers o [] []
  | cons {s : Snapshot} {text : String} {later : List Snapshot} {said : List Utterance}
      (dumped : dump o s = .ok text) (rest : Offers o later said) :
      Offers o (s :: later) (.dump s text :: .ask .continuation :: said)

/-- The request that a command makes, with the lines that answer its questions. -/
inductive Orders : String → List String → Execution → Prop
  | step {command : String} (h : foldLine command ∈ ["s", "step"]) : Orders command [] .step
  | run {command : String} (h : foldLine command ∈ ["a", "run"]) (lines : List String) :
      Orders command lines
        (.run (some (lines.map fun line => ["y", "yes"].contains (foldLine line))) none)

/-- A command typed to a session and carried out: the script that begins with it, the request that
it makes, what is said while it is carried out, and what is left of the script.  It has taken a line
for each of its questions, or was left without one by the end of input at the last of them. -/
inductive Call (o : Options) (m : Machine) :
    List Reply → Execution → List Utterance → List Reply → Prop
  | intro {command text : String} {lines : List String} {request : Execution}
      {rest : List Reply} {offered : List Utterance} (orders : Orders command lines request)
      (taken : (m.shown request).size = lines.length ∨
        rest = [] ∧ (m.shown request).size = lines.length + 1)
      (offers : Offers o (m.shown request).toList offered)
      (dumped : dump o (m.perform request).machine.snapshot = .ok text) :
      Call o m (.line command :: (lines.map .line ++ rest)) request
        (offered ++ [.dump (m.perform request).machine.snapshot text]) rest

/-- What is said when the next command is asked for. -/
def prompt : List Utterance := [.commands, .ask .command]

/-- A session with a machine and a script: the requests that were carried out, what was said aloud,
the machine after the requests and how the session ended. -/
inductive Dialogue (o : Options) :
    Machine → List Reply → List Execution → List Utterance → Machine → Ending → Prop
  | endOfInput (m : Machine) : Dialogue o m [] [] prompt m .done
  | quit (m : Machine) {command : String} (h : foldLine command ∈ ["q", "quit"])
      (script : List Reply) : Dialogue o m (.line command :: script) [] prompt m .done
  /-- The user breaks off at the question for a command. -/
  | brokenOff (m : Machine) (script : List Reply) :
      Dialogue o m (.interrupt :: script) [] prompt m .interrupted
  /-- The user breaks off at a question of a run. -/
  | brokenRun {m : Machine} {command : String} {lines : List String} {request : Execution}
      {offered : List Utterance} (orders : Orders command lines request)
      (taken : (m.shown request).size = lines.length + 1)
      (offers : Offers o (m.shown request).toList offered) (script : List Reply) :
      Dialogue o m (.line command :: (lines.map .line ++ .interrupt :: script)) []
        (prompt ++ offered) m .interrupted
  /-- A line that is no command. -/
  | refused {m last : Machine} {line : String} {script : List Reply} {calls : List Execution}
      {said : List Utterance} {ending : Ending}
      (h : foldLine line ∉ ["s", "step", "a", "run", "q", "quit"])
      (later : Dialogue o m script calls said last ending) :
      Dialogue o m (.line line :: script) calls (prompt ++ .noCommand :: said) last ending
  /-- A command that ends the program. -/
  | halted {m : Machine} {script rest : List Reply} {request : Execution} {said : List Utterance}
      (call : Call o m script request said rest)
      (h : (m.perform request).machine.state = .halted) :
      Dialogue o m script [request] (prompt ++ (said ++ [.terminated])) (m.perform request).machine
        .done
  /-- A command that comes to a fault. -/
  | faulted {m : Machine} {script rest : List Reply} {request : Execution} {said : List Utterance}
      {fault : Fault} (call : Call o m script request said rest)
      (h : (m.perform request).machine.state = .faulted)
      (hfault : (m.perform request).machine.fault = some fault) :
      Dialogue o m script [request] (prompt ++ (said ++ [.faulted fault]))
        (m.perform request).machine .faulted
  /-- A command after which there is another. -/
  | carriedOut {m last : Machine} {script rest : List Reply} {request : Execution}
      {calls : List Execution} {said saidLater : List Utterance} {ending : Ending}
      (call : Call o m script request said rest)
      (h : (m.perform request).machine.state.isTerminal = false)
      (later : Dialogue o (m.perform request).machine rest calls saidLater last ending) :
      Dialogue o m script (request :: calls) (prompt ++ (said ++ saidLater)) last ending

/-! ### What a dialogue is like -/

/-- The utterances of offers are dumps and questions whether to go on, as many of the ones as of the
others. -/
theorem Offers.counts {shown : List Snapshot} {said : List Utterance} (h : Offers o shown said) :
    said.countP Utterance.isDump = said.countP Utterance.asksToContinue ∧
      ∀ u ∈ said, u.isDump ∨ u.asksToContinue := by
  induction h with
  | nil => exact ⟨rfl, fun _ hu => absurd hu List.not_mem_nil⟩
  | cons _ _ ih =>
    refine ⟨?_, fun u hu => ?_⟩
    · simpa [List.countP_cons, Utterance.isDump, Utterance.asksToContinue] using ih.1
    · rcases List.mem_cons.1 hu with rfl | hu
      · exact Or.inl rfl
      · rcases List.mem_cons.1 hu with rfl | hu
        · exact Or.inr rfl
        · exact ih.2 u hu

/-- A command that was carried out has one dump more than it has questions. -/
theorem Call.counts {script rest : List Reply} {request : Execution} {said : List Utterance}
    (h : Call o m script request said rest) :
    said.countP Utterance.isDump = said.countP Utterance.asksToContinue + 1 ∧
      ∀ u ∈ said, u.isDump ∨ u.asksToContinue := by
  cases h with
  | intro _ _ offers _ =>
    obtain ⟨hcount, hmem⟩ := offers.counts
    refine ⟨?_, fun u hu => ?_⟩
    · rw [List.countP_append, List.countP_append, hcount]
      rfl
    · rcases List.mem_append.1 hu with hu | hu
      · exact hmem u hu
      · exact Or.inl (List.mem_singleton.1 hu ▸ rfl)

/-- Whether nothing that is said says that the program has come to its end. -/
def Quiet (said : List Utterance) : Prop := ∀ u ∈ said, u.concludes = false

theorem Quiet.append {said later : List Utterance} (h : Quiet said) (hlater : Quiet later) :
    Quiet (said ++ later) := by
  intro u hu
  rcases List.mem_append.1 hu with hu | hu
  · exact h u hu
  · exact hlater u hu

theorem Quiet.of_asked {said : List Utterance} (h : ∀ u ∈ said, u.isDump ∨ u.asksToContinue) :
    Quiet said := by
  intro u hu
  have hasked := h u hu
  cases u <;> simp [Utterance.isDump, Utterance.asksToContinue, Utterance.concludes] at hasked ⊢

theorem quiet_prompt : Quiet prompt := by
  simp [Quiet, prompt, Utterance.concludes]

/-- How a session ends that leaves a machine behind: with the program or with a fault of it, which
is the last thing said and was not said before, or by the user. -/
inductive Ends (last : Machine) : List Utterance → Ending → Prop
  | halted {before : List Utterance} (state : last.state = .halted) (quiet : Quiet before) :
      Ends last (before ++ [.terminated]) .done
  | faulted {before : List Utterance} {fault : Fault} (state : last.state = .faulted)
      (fault_eq : last.fault = some fault) (quiet : Quiet before) :
      Ends last (before ++ [.faulted fault]) .faulted
  | left {said : List Utterance} {ending : Ending} (state : last.state.isTerminal = false)
      (quiet : Quiet said) (ending_eq : ending = .done ∨ ending = .interrupted) :
      Ends last said ending

theorem Ends.prepend {last : Machine} {earlier said : List Utterance} {ending : Ending}
    (h : Ends last said ending) (hearlier : Quiet earlier) :
    Ends last (earlier ++ said) ending := by
  cases h with
  | halted state quiet =>
    rw [← List.append_assoc]
    exact .halted state (hearlier.append quiet)
  | faulted state fault_eq quiet =>
    rw [← List.append_assoc]
    exact .faulted state fault_eq (hearlier.append quiet)
  | left state quiet ending_eq => exact .left state (hearlier.append quiet) ending_eq

/-- What the ending, and what was said last, tell about the machine. -/
theorem Ends.tells {last : Machine} {said : List Utterance} {ending : Ending}
    (h : Ends last said ending) :
    (ending = .exit 2 ↔ last.state = .faulted) ∧
    (last.state = .faulted → ∃ fault, last.fault = some fault ∧
      said.getLast? = some (.faulted fault)) ∧
    (.terminated ∈ said ↔ last.state = .halted) ∧
    (last.state = .halted → ending = .exit 0 ∧ said.getLast? = some .terminated) := by
  have hnot : ∀ before : List Utterance, Quiet before → .terminated ∉ before :=
    fun before quiet hmem => Bool.noConfusion (quiet _ hmem)
  cases h with
  | halted state quiet => simp [state, Ending.done]
  | faulted state fault_eq quiet => simp [state, fault_eq, hnot _ quiet, Ending.faulted]
  | left state quiet ending_eq =>
    have hfaulted : last.state ≠ .faulted := fun h => by rw [h] at state; cases state
    have hhalted : last.state ≠ .halted := fun h => by rw [h] at state; cases state
    have hexit : ending ≠ .exit 2 := by rcases ending_eq with rfl | rfl <;> decide
    simp [hfaulted, hhalted, hexit, hnot _ quiet]

namespace Dialogue

variable {last : Machine} {script : List Reply} {calls : List Execution}
  {said : List Utterance} {ending : Ending}

theorem last_eq (h : Dialogue o m script calls said last ending) : last = m.after calls := by
  induction h with
  | refused _ _ ih => exact ih
  | carriedOut _ _ _ ih => exact ih
  | _ => rfl

/-- No request is made of a machine that has come to its end. -/
theorem isTerminal_after (h : Dialogue o m script calls said last ending)
    (hm : m.state.isTerminal = false) (k : Nat) (hk : k < calls.length) :
    (m.after (calls.take k)).state.isTerminal = false := by
  induction h generalizing k with
  | refused _ _ ih => exact ih hm k hk
  | halted =>
    obtain rfl : k = 0 := Nat.lt_one_iff.1 hk
    exact hm
  | faulted =>
    obtain rfl : k = 0 := Nat.lt_one_iff.1 hk
    exact hm
  | carriedOut _ hstate _ ih =>
    cases k with
    | zero => exact hm
    | succ k => exact ih hstate k (Nat.lt_of_succ_lt_succ hk)
  | _ => exact absurd hk (Nat.not_lt_zero k)

/-- There is a dump for every request that was carried out and for every question whether to go
on. -/
theorem counts (h : Dialogue o m script calls said last ending) :
    said.countP Utterance.isDump = calls.length + said.countP Utterance.asksToContinue := by
  induction h with
  | endOfInput => rfl
  | quit => rfl
  | brokenOff => rfl
  | brokenRun _ _ offers =>
    rw [List.countP_append, List.countP_append, offers.counts.1]
    simp [prompt, Utterance.isDump, Utterance.asksToContinue]
  | refused _ _ ih =>
    rw [List.countP_append, List.countP_append, List.countP_cons, List.countP_cons, ih]
    simp [prompt, Utterance.isDump, Utterance.asksToContinue]
  | halted call =>
    simp only [List.countP_append, call.counts.1]
    simp [prompt, Utterance.isDump, Utterance.asksToContinue]
    omega
  | faulted call =>
    simp only [List.countP_append, call.counts.1]
    simp [prompt, Utterance.isDump, Utterance.asksToContinue]
    omega
  | carriedOut call _ _ ih =>
    simp only [List.countP_append, call.counts.1, ih, List.length_cons]
    simp [prompt, Utterance.isDump, Utterance.asksToContinue]
    omega

/-- A dialogue with a machine that has not come to its end ends with the program or with a fault of
it, or the user ends it. -/
theorem ends (h : Dialogue o m script calls said last ending) (hm : m.state.isTerminal = false) :
    Ends last said ending := by
  induction h with
  | endOfInput => exact .left hm quiet_prompt (Or.inl rfl)
  | quit => exact .left hm quiet_prompt (Or.inl rfl)
  | brokenOff => exact .left hm quiet_prompt (Or.inr rfl)
  | brokenRun _ _ offers =>
    exact .left hm (quiet_prompt.append (.of_asked offers.counts.2)) (Or.inr rfl)
  | refused _ _ ih =>
    have hrefused : Quiet (prompt ++ [.noCommand]) := by
      simp [Quiet, prompt, Utterance.concludes]
    have hends := (ih hm).prepend hrefused
    simpa using hends
  | halted call hstate =>
    have hquiet := quiet_prompt.append (.of_asked call.counts.2)
    simpa using Ends.halted hstate hquiet
  | faulted call hstate hfault =>
    have hquiet := quiet_prompt.append (.of_asked call.counts.2)
    simpa using Ends.faulted hstate hfault hquiet
  | carriedOut call hstate _ ih =>
    have hquiet := quiet_prompt.append (.of_asked call.counts.2)
    simpa using (ih hstate).prepend hquiet

end Dialogue

/-! ### The one dialogue of a script -/

theorem Offers.unique {shown : List Snapshot} {said other : List Utterance}
    (h : Offers o shown said) (hother : Offers o shown other) : said = other := by
  induction h generalizing other with
  | nil =>
    cases hother
    rfl
  | cons dumped _ ih =>
    cases hother with
    | cons otherDumped rest =>
      rw [Except.ok.inj (dumped.symm.trans otherDumped), ih rest]

theorem Orders.word_mem {command : String} {lines : List String} {request : Execution}
    (h : Orders command lines request) : foldLine command ∈ ["s", "step", "a", "run"] := by
  cases h with
  | step h => exact List.mem_append_left ["a", "run"] h
  | run h => exact List.mem_append_right ["s", "step"] h

theorem not_step_and_run {word : String} (hstep : word ∈ ["s", "step"])
    (hrun : word ∈ ["a", "run"]) : False := by
  rcases List.mem_pair.1 hstep with rfl | rfl
  · exact absurd hrun (by decide)
  · exact absurd hrun (by decide)

theorem not_request_and_quit {word : String} (hrequest : word ∈ ["s", "step", "a", "run"])
    (hquit : word ∈ ["q", "quit"]) : False := by
  rcases List.mem_pair.1 hquit with rfl | rfl
  · exact absurd hrequest (by decide)
  · exact absurd hrequest (by decide)

theorem Orders.unique {command : String} {lines : List String} {request other : Execution}
    (h : Orders command lines request) (hother : Orders command lines other) :
    request = other := by
  cases h with
  | step h =>
    cases hother with
    | step => rfl
    | run hrun => exact (not_step_and_run h hrun).elim
  | run h =>
    cases hother with
    | step hstep => exact (not_step_and_run hstep h).elim
    | run => rfl

/-- Lines behind those that answer the questions of a request do not change what it shows. -/
theorem Orders.shown_append {command : String} {lines more : List String}
    {request other : Execution} (h : Orders command lines request)
    (hother : Orders command (lines ++ more) other)
    (hsize : (m.shown request).size ≤ lines.length) : m.shown other = m.shown request := by
  cases h with
  | step h =>
    cases hother with
    | step => rfl
    | run hrun => exact (not_step_and_run h hrun).elim
  | run h =>
    generalize hlines : lines ++ more = all at hother
    cases hother with
    | step hstep => exact (not_step_and_run hstep h).elim
    | run =>
      subst hlines
      show (Machine.continueRun _ _ #[] _).shown = _
      rw [List.map_append]
      exact Machine.shown_continueRun_append _
        (Nat.le_trans hsize (Nat.le_of_eq (List.length_map _).symm))

/-- Whether a request takes the lines for its questions, with what is left of the script: a line for
each of them, or for each but the last, which finds no line. -/
def Takes (m : Machine) (request : Execution) (lines : List String) (rest : List Reply) : Prop :=
  (m.shown request).size = lines.length ∨
    (∀ line later, rest ≠ .line line :: later) ∧ (m.shown request).size = lines.length + 1

theorem Takes.eq_nil {command : String} {lines more : List String} {request other : Execution}
    {rest : List Reply} (h : Takes m request lines (more.map .line ++ rest))
    (hother : Takes m other (lines ++ more) rest) (orders : Orders command lines request)
    (otherOrders : Orders command (lines ++ more) other) : more = [] := by
  cases more with
  | nil => rfl
  | cons line more =>
    have hsize : (m.shown request).size = lines.length := by
      rcases h with hsize | ⟨hrest, -⟩
      · exact hsize
      · exact absurd rfl (hrest line (more.map .line ++ rest))
    have hshown := orders.shown_append otherOrders (Nat.le_of_eq hsize)
    rw [Takes, hshown, hsize, List.length_append, List.length_cons] at hother
    omega

theorem Takes.of_taken {request : Execution} {lines : List String} {rest : List Reply}
    (h : (m.shown request).size = lines.length ∨
      rest = [] ∧ (m.shown request).size = lines.length + 1) : Takes m request lines rest := by
  refine h.imp id fun hlast => ⟨fun line later hrest => ?_, hlast.2⟩
  rw [hlast.1] at hrest
  cases hrest

theorem Takes.of_broken {request : Execution} {lines : List String} {later : List Reply}
    (h : (m.shown request).size = lines.length + 1) :
    Takes m request lines (.interrupt :: later) := by
  refine Or.inr ⟨fun line rest hrest => ?_, h⟩
  cases hrest

/-- A request takes its lines in one way. -/
theorem Takes.unique {command : String} {lines otherLines : List String}
    {request other : Execution} {rest otherRest : List Reply} (h : Takes m request lines rest)
    (hother : Takes m other otherLines otherRest) (orders : Orders command lines request)
    (otherOrders : Orders command otherLines other)
    (hscript : lines.map .line ++ rest = otherLines.map Reply.line ++ otherRest) :
    lines = otherLines ∧ rest = otherRest := by
  have hinjective : Function.Injective Reply.line := fun _ _ => Reply.line.inj
  rcases List.append_eq_append_iff.1 hscript with ⟨more, hlines, hrest⟩ | ⟨more, hlines, hrest⟩
  · obtain ⟨first, later, rfl, hfirst, rfl⟩ := List.map_eq_append_iff.1 hlines
    obtain rfl := List.map_injective_iff.2 hinjective hfirst
    subst hrest
    obtain rfl := h.eq_nil hother orders otherOrders
    exact ⟨(List.append_nil _).symm, rfl⟩
  · obtain ⟨first, later, rfl, hfirst, rfl⟩ := List.map_eq_append_iff.1 hlines
    obtain rfl := List.map_injective_iff.2 hinjective hfirst
    subst hrest
    obtain rfl := hother.eq_nil h otherOrders orders
    exact ⟨List.append_nil _, rfl⟩

theorem Call.inv {script rest : List Reply} {request : Execution} {said : List Utterance}
    (h : Call o m script request said rest) : ∃ command lines offered text,
      script = .line command :: (lines.map .line ++ rest) ∧ Orders command lines request ∧
      ((m.shown request).size = lines.length ∨
        rest = [] ∧ (m.shown request).size = lines.length + 1) ∧
      Offers o (m.shown request).toList offered ∧
      dump o (m.perform request).machine.snapshot = .ok text ∧
      said = offered ++ [.dump (m.perform request).machine.snapshot text] := by
  cases h with
  | intro orders taken offers dumped =>
    exact ⟨_, _, _, _, rfl, orders, taken, offers, dumped, rfl⟩

theorem Call.word_mem {line : String} {script rest : List Reply} {request : Execution}
    {said : List Utterance} (h : Call o m (.line line :: script) request said rest) :
    foldLine line ∈ ["s", "step", "a", "run"] := by
  cases h with
  | intro orders => exact orders.word_mem

theorem Call.unique {script rest otherRest : List Reply} {request other : Execution}
    {said otherSaid : List Utterance} (h : Call o m script request said rest)
    (hother : Call o m script other otherSaid otherRest) :
    request = other ∧ said = otherSaid ∧ rest = otherRest := by
  obtain ⟨command, lines, offered, text, rfl, orders, taken, offers, dumped, rfl⟩ := h.inv
  obtain ⟨_, otherLines, otherOffered, otherText, hscript, otherOrders, otherTaken, otherOffers,
    otherDumped, rfl⟩ := hother.inv
  obtain ⟨hcommand, htail⟩ := List.cons.inj hscript
  obtain rfl := Reply.line.inj hcommand
  obtain ⟨rfl, rfl⟩ := (Takes.of_taken taken).unique (.of_taken otherTaken) orders otherOrders htail
  obtain rfl := orders.unique otherOrders
  obtain rfl := offers.unique otherOffers
  obtain rfl := Except.ok.inj (dumped.symm.trans otherDumped)
  exact ⟨rfl, rfl, rfl⟩

/-- A command at whose question the user breaks off is not carried out. -/
theorem Call.not_broken {command : String} {lines : List String} {request other : Execution}
    {later rest : List Reply} {said : List Utterance} (orders : Orders command lines request)
    (taken : (m.shown request).size = lines.length + 1) :
    ¬ Call o m (.line command :: (lines.map .line ++ .interrupt :: later)) other said rest := by
  intro h
  obtain ⟨_, otherLines, _, _, hscript, otherOrders, otherTaken, -, -, -⟩ := h.inv
  obtain ⟨hcommand, htail⟩ := List.cons.inj hscript
  obtain rfl := Reply.line.inj hcommand
  obtain ⟨rfl, rfl⟩ :=
    (Takes.of_broken taken).unique (.of_taken otherTaken) orders otherOrders htail
  obtain rfl := orders.unique otherOrders
  rcases otherTaken with hsize | ⟨hrest, -⟩
  · omega
  · cases hrest

namespace Dialogue

variable {last : Machine} {script : List Reply} {calls : List Execution}
  {said : List Utterance} {ending : Ending}

/-- How a dialogue goes on that begins with a command that is carried out. -/
theorem of_call {rest : List Reply} {request : Execution} {saidFirst : List Utterance}
    (call : Call o m script request saidFirst rest)
    (h : Dialogue o m script calls said last ending) :
    ((m.perform request).machine.state = .halted ∧ calls = [request] ∧
      said = prompt ++ (saidFirst ++ [.terminated]) ∧ ending = .done) ∨
    (∃ fault, (m.perform request).machine.state = .faulted ∧
      (m.perform request).machine.fault = some fault ∧ calls = [request] ∧
      said = prompt ++ (saidFirst ++ [.faulted fault]) ∧ ending = .faulted) ∨
    (∃ later saidLater, (m.perform request).machine.state.isTerminal = false ∧
      calls = request :: later ∧ said = prompt ++ (saidFirst ++ saidLater) ∧
      Dialogue o (m.perform request).machine rest later saidLater last ending) := by
  cases h with
  | endOfInput => cases call
  | quit _ hword => exact (not_request_and_quit call.word_mem hword).elim
  | brokenOff => cases call
  | brokenRun orders taken => exact absurd call (Call.not_broken orders taken)
  | refused hword => exact absurd (List.mem_append_left ["q", "quit"] call.word_mem) hword
  | halted other hstate =>
    obtain ⟨rfl, rfl, -⟩ := call.unique other
    exact Or.inl ⟨hstate, rfl, rfl, rfl⟩
  | faulted other hstate hfault =>
    obtain ⟨rfl, rfl, -⟩ := call.unique other
    exact Or.inr (Or.inl ⟨_, hstate, hfault, rfl, rfl, rfl⟩)
  | carriedOut other hstate later =>
    obtain ⟨rfl, rfl, rfl⟩ := call.unique other
    exact Or.inr (Or.inr ⟨_, _, hstate, rfl, rfl, later⟩)

/-- How a dialogue goes on that begins with a request at whose question the user breaks off. -/
theorem of_broken {command : String} {lines : List String} {request : Execution}
    {offered : List Utterance} {later : List Reply} (orders : Orders command lines request)
    (taken : (m.shown request).size = lines.length + 1)
    (offers : Offers o (m.shown request).toList offered)
    (h : Dialogue o m (.line command :: (lines.map .line ++ .interrupt :: later)) calls said last
      ending) : calls = [] ∧ said = prompt ++ offered ∧ ending = .interrupted := by
  generalize hscript : Reply.line command :: (lines.map .line ++ .interrupt :: later) = script at h
  cases h with
  | endOfInput => cases hscript
  | quit _ hword =>
    obtain rfl := Reply.line.inj (List.cons.inj hscript).1
    exact (not_request_and_quit orders.word_mem hword).elim
  | brokenOff => cases hscript
  | @brokenRun _ _ otherLines _ _ otherOrders otherTaken otherOffers otherLater =>
    obtain ⟨hcommand, htail⟩ := List.cons.inj hscript
    obtain rfl := Reply.line.inj hcommand
    obtain ⟨rfl, -⟩ :=
      (Takes.of_broken taken).unique (.of_broken otherTaken) orders otherOrders htail
    obtain rfl := orders.unique otherOrders
    exact ⟨rfl, by rw [offers.unique otherOffers], rfl⟩
  | refused hword =>
    obtain rfl := Reply.line.inj (List.cons.inj hscript).1
    exact absurd (List.mem_append_left ["q", "quit"] orders.word_mem) hword
  | halted call => exact absurd (hscript ▸ call) (Call.not_broken orders taken)
  | faulted call => exact absurd (hscript ▸ call) (Call.not_broken orders taken)
  | carriedOut call => exact absurd (hscript ▸ call) (Call.not_broken orders taken)

/-- **A script has one dialogue.** -/
theorem unique {other : List Execution} {otherSaid : List Utterance} {otherLast : Machine}
    {otherEnding : Ending} (h : Dialogue o m script calls said last ending)
    (hother : Dialogue o m script other otherSaid otherLast otherEnding) :
    calls = other ∧ said = otherSaid ∧ ending = otherEnding := by
  induction h generalizing other otherSaid with
  | endOfInput =>
    cases hother with
    | endOfInput => exact ⟨rfl, rfl, rfl⟩
    | halted call => cases call
    | faulted call => cases call
    | carriedOut call => cases call
  | quit _ hword =>
    cases hother with
    | quit => exact ⟨rfl, rfl, rfl⟩
    | brokenRun orders => exact (not_request_and_quit orders.word_mem hword).elim
    | refused hrefused =>
      exact absurd (List.mem_append_right ["s", "step", "a", "run"] hword) hrefused
    | halted call => exact (not_request_and_quit call.word_mem hword).elim
    | faulted call => exact (not_request_and_quit call.word_mem hword).elim
    | carriedOut call => exact (not_request_and_quit call.word_mem hword).elim
  | brokenOff =>
    cases hother with
    | brokenOff => exact ⟨rfl, rfl, rfl⟩
    | halted call => cases call
    | faulted call => cases call
    | carriedOut call => cases call
  | brokenRun orders taken offers =>
    obtain ⟨rfl, rfl, rfl⟩ := hother.of_broken orders taken offers
    exact ⟨rfl, rfl, rfl⟩
  | refused hword _ ih =>
    have hrequest : foldLine _ ∉ ["s", "step", "a", "run"] := fun h =>
      hword (List.mem_append_left ["q", "quit"] h)
    cases hother with
    | quit _ hquit => exact absurd (List.mem_append_right ["s", "step", "a", "run"] hquit) hword
    | brokenRun orders => exact absurd orders.word_mem hrequest
    | refused _ later =>
      obtain ⟨rfl, rfl, rfl⟩ := ih later
      exact ⟨rfl, rfl, rfl⟩
    | halted call => exact absurd call.word_mem hrequest
    | faulted call => exact absurd call.word_mem hrequest
    | carriedOut call => exact absurd call.word_mem hrequest
  | halted call hstate =>
    rcases hother.of_call call with ⟨-, rfl, rfl, rfl⟩ | ⟨_, hfaulted, -⟩ | ⟨_, _, hrunning, -⟩
    · exact ⟨rfl, rfl, rfl⟩
    · cases hstate.symm.trans hfaulted
    · rw [hstate] at hrunning
      cases hrunning
  | faulted call hstate hfault =>
    rcases hother.of_call call with ⟨hhalted, -⟩ | ⟨_, -, hsame, rfl, rfl, rfl⟩ |
      ⟨_, _, hrunning, -⟩
    · cases hstate.symm.trans hhalted
    · obtain rfl := Option.some.inj (hfault.symm.trans hsame)
      exact ⟨rfl, rfl, rfl⟩
    · rw [hstate] at hrunning
      cases hrunning
  | carriedOut call hrunning _ ih =>
    rcases hother.of_call call with ⟨hhalted, -⟩ | ⟨_, hfaulted, -⟩ | ⟨_, _, -, rfl, rfl, hlater⟩
    · rw [hhalted] at hrunning
      cases hrunning
    · rw [hfaulted] at hrunning
      cases hrunning
    · obtain ⟨rfl, rfl, rfl⟩ := ih hlater
      exact ⟨rfl, rfl, rfl⟩

end Dialogue

end Session

end Accumulator
