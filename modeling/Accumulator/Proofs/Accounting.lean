import Accumulator.Proofs.FaultConditions
import Accumulator.Proofs.Loading
import Accumulator.Proofs.Lockstep
import Accumulator.Proofs.Rows

/-!
# Trace and counter

`cyclesAfter` lists the cores that the cycles of requests begin with.  In a machine that is traced
from the loading of its program on, the trace has the line of each of them that an instruction was
fetched from, and the counter is the number of those whose attempt succeeded (`trace_accounts`).

The two numbers differ by the cycle that was refused after its line had been written.  There is at
most one, the last, and it leaves the core as it was; so the machine has faulted, and an instruction
can still be fetched.  `Core.Orderly.isLate_iff` says of which kinds such a fault is.
-/

namespace Accumulator

open Numeral (decimal)

/-- The kinds of faults that are met after an instruction has been fetched. -/
def FaultKind.isLate : FaultKind → Bool
  | unknownSymbol | addressSpaceExhausted | corruptData => true
  | _ => false

/-- The registers in one line, however long. -/
def Registers.line (r : Registers) : String :=
  "PC=" ++ Text.flushRight 3 (decimal r.programCounter) ++ " A=" ++ decimal r.accumulator ++
    " B=" ++ decimal r.data ++ " [" ++ r.flagText ++ "]"

namespace Core

variable {c : Core} {program : List Word}

/-- The trace line of an instruction: its address, its text and the registers before it. -/
def line (c : Core) (i : Instruction) : String :=
  "[" ++ Text.flushRight 3 (decimal c.registers.programCounter) ++ "] " ++
    Text.flushLeft 12 i.text ++ " " ++ c.registers.line

/-- The trace line of the instruction at the program counter, if there is one. -/
def line? (c : Core) : Option String :=
  match c.fetch with
  | .ok i => some (c.line i)
  | .error _ => none

/-- Whether a cycle that begins with the core is completed. -/
def completes (c : Core) : Bool :=
  match c.attempt with
  | .ok _ => true
  | .error _ => false

/-! ### Lines -/

theorem newline_not_mem_line {i : Instruction} (h : i.WellFormed) :
    '\n' ∉ (c.line i).toList := by
  have hpc := Numeral.newline_not_mem_decimal c.registers.programCounter
  have ha := Numeral.newline_not_mem_decimal c.registers.accumulator
  have hb := Numeral.newline_not_mem_decimal c.registers.data
  simp [line, Registers.line, Text.flushRight, Text.flushLeft, Text.newline_not_mem_filler, hpc, ha,
    hb, Instruction.newline_not_mem_text h, Registers.newline_not_mem_flagText]

/-- A line is one row. -/
theorem row_of_line? {row : String} (h : c.line? = some row) :
    row ≠ "" ∧ '\n' ∉ row.toList := by
  unfold line? at h
  split at h
  · next i hfetch =>
    obtain rfl := Option.some.inj h
    obtain ⟨word, -, hdecode⟩ := bind_eq_ok hfetch
    refine ⟨?_, newline_not_mem_line (Instruction.wellFormed_of_decode hdecode)⟩
    intro hempty
    have htoList := congrArg String.toList hempty
    simp [line] at htoList
  · cases h

/-! ### Faults before and after fetching -/

/-- A fault on the list is met after fetching exactly if it is of one of the late kinds. -/
theorem Meets.isLate_iff {kind : FaultKind} {address : Option Int} (h : c.Meets kind address) :
    kind.isLate ↔ ∃ i, c.fetch = .ok i := by
  cases h with
  | outside houtside =>
    rw [fetch_of_outside houtside]
    simp [FaultKind.isLate]
  | notText hread =>
    rw [fetch_of_number hread]
    simp [FaultKind.isLate]
  | noToken htokens =>
    rw [fetch_of_tokens_nil htokens]
    simp [FaultKind.isLate]
  | unknown htokens hunknown =>
    rw [fetch_of_unknown htokens hunknown]
    simp [FaultKind.isLate]
  | @malformed op operands htokens hunfit =>
    refine iff_of_false Bool.false_ne_true ?_
    rintro ⟨i, hfetch⟩
    have hdecoded := decoded_ofTokens c.registers.programCounter op operands
    rw [← fetch_of_tokens_cons htokens, hfetch] at hdecoded
    cases hdecoded with
    | made hmakes => exact hunfit (Opcode.takes_iff_exists_makes.2 ⟨i, hmakes⟩)
  | @unbound op name haccess htokens hname =>
    refine iff_of_true rfl ?_
    rcases haccess with rfl | rfl
    · exact ⟨.load name, fetch_of_makes htokens (.symbolic rfl hname)⟩
    · exact ⟨.store name, fetch_of_makes htokens (.symbolic rfl hname)⟩
  | @full name htokens hname =>
    exact iff_of_true rfl ⟨.declare name, fetch_of_makes htokens (.symbolic rfl hname)⟩
  | @corrupt name address word htokens hname =>
    exact iff_of_true rfl ⟨.load name, fetch_of_makes htokens (.symbolic rfl hname)⟩

theorem Orderly.isLate_iff (hc : c.Orderly program) {fault : Fault}
    (h : c.attempt = .error (.fault fault)) : fault.kind.isLate ↔ ∃ i, c.fetch = .ok i :=
  (hc.meets_of_attempt h).isLate_iff

end Core

namespace Machine

variable {m : Machine} {cycles : List Core}

/-! ### Cycles -/

/-- The cores that up to `limit` cycles begin with; the first cycle that does not go on is the
last. -/
def begun (m : Machine) : Nat → List Core
  | 0 => []
  | limit + 1 => m.toCore :: if m.goesOn then m.step.machine.begun limit else []

/-- The cores that the cycles of a request begin with.  A machine that has come to its end begins
none. -/
def cyclesOf (m : Machine) (request : Execution) : List Core :=
  if m.state.isTerminal then [] else m.begun (m.demand request)

/-- The cores that the cycles of requests begin with, one after another. -/
def cyclesAfter (m : Machine) : List Execution → List Core
  | [] => []
  | request :: requests =>
    m.cyclesOf request ++ (m.perform request).machine.cyclesAfter requests

theorem begun_of_goesOn {limit : Nat} (h : ∀ k < limit, (m.stepped k).goesOn) :
    m.begun limit = (List.range limit).map fun k => (m.stepped k).toCore := by
  induction limit generalizing m with
  | zero => rfl
  | succ limit ih =>
    have hfirst : m.goesOn := h 0 (Nat.succ_pos limit)
    have hlater : ∀ k < limit, (m.step.machine.stepped k).goesOn :=
      fun k hk => h (k + 1) (Nat.succ_lt_succ hk)
    rw [begun, if_pos hfirst, ih hlater, List.range_succ_eq_map, List.map_cons, List.map_map]
    rfl

theorem begun_of_last {limit n : Nat} (hn : n < limit) (h : ∀ k < n, (m.stepped k).goesOn)
    (hlast : ¬ (m.stepped n).goesOn) :
    m.begun limit =
      ((List.range n).map fun k => (m.stepped k).toCore) ++ [(m.stepped n).toCore] := by
  induction n generalizing m limit with
  | zero =>
    obtain ⟨limit, rfl⟩ := Nat.exists_eq_add_one.2 hn
    have hfirst : ¬ m.goesOn := hlast
    rw [begun, if_neg hfirst]
    rfl
  | succ n ih =>
    obtain ⟨limit, rfl⟩ := Nat.exists_eq_add_one.2 (Nat.zero_lt_of_lt hn)
    have hfirst : m.goesOn := h 0 (Nat.succ_pos n)
    have hlater : ∀ k < n, (m.step.machine.stepped k).goesOn :=
      fun k hk => h (k + 1) (Nat.succ_lt_succ hk)
    rw [begun, if_pos hfirst, ih (Nat.lt_of_succ_lt_succ hn) hlater hlast, List.range_succ_eq_map,
      List.map_cons, List.map_map]
    rfl

/-! ### The account -/

/-- Whether a machine has faulted after its last instruction was fetched. -/
def FailedLate (m : Machine) : Prop :=
  m.state = .faulted ∧ ∃ fault, m.fault = some fault ∧ fault.kind.isLate

/-- What the trace and the counter of a machine say of its cycles. -/
structure Accounts (m : Machine) (cycles : List Core) : Prop where
  trace : m.trace.toList = cycles.filterMap Core.line?
  executed : m.registers.executed = cycles.countP Core.completes
  late : m.FailedLate → m.trace.size = cycles.countP Core.completes + 1
  timely : ¬ m.FailedLate → m.trace.size = cycles.countP Core.completes

/-- A trace line that can be written is the line of the instruction. -/
theorem eq_line_of_traceLine {i : Instruction} {row : String} (h : m.traceLine i = .ok row) :
    row = m.toCore.line i := by
  have hdecimal : ∀ {n : Int} {s : String}, Numeral.write n = .ok s → s = decimal n := by
    intro n s hs
    unfold Numeral.write at hs
    split at hs
    · exact (Except.ok.inj hs).symm
    · cases hs
  obtain ⟨pc, hpc, h⟩ := Core.bind_eq_ok h
  obtain ⟨display, hdisplay, h⟩ := Core.bind_eq_ok h
  obtain ⟨shown, hshown, hdisplay⟩ := Core.bind_eq_ok hdisplay
  obtain ⟨a, ha, hdisplay⟩ := Core.bind_eq_ok hdisplay
  obtain ⟨b, hb, hdisplay⟩ := Core.bind_eq_ok hdisplay
  obtain rfl := hdecimal hpc
  obtain rfl := hdecimal hshown
  obtain rfl := hdecimal ha
  obtain rfl := hdecimal hb
  obtain rfl := Except.ok.inj hdisplay
  exact (Except.ok.inj h).symm

/-- What a cycle that is not broken off adds to the trace and to the counter. -/
theorem cycle_adds (htraced : m.tracing = true)
    (hanswer : ∀ error, m.cycle.answer ≠ .error (.overlong error)) :
    m.cycle.machine.trace.toList = m.trace.toList ++ m.line?.toList ∧
      m.cycle.machine.registers.executed =
        m.registers.executed + (if m.completes then 1 else 0) := by
  have hrecorded : ∀ {i : Instruction} {row? : Option String}, m.fetch = .ok i →
      m.traceLine? i = .ok row? →
        (m.record row?).trace.toList = m.trace.toList ++ m.line?.toList := by
    intro i row? hfetch htrace
    rw [traceLine?, htraced] at htrace
    obtain ⟨row, hrow, heq⟩ := Core.bind_eq_ok htrace
    obtain rfl := Except.ok.inj heq
    rw [eq_line_of_traceLine hrow, Core.line?, hfetch]
    simp [record]
  have hcycle := m.cycleOutcome
  generalize m.cycle = report at hanswer hcycle
  cases hcycle with
  | unfetched hfetch =>
    rw [Core.line?, hfetch, Core.completes, Core.attempt_of_fetch_error hfetch]
    simp
  | untraced => exact absurd rfl (hanswer _)
  | refused hfetch htrace hexecute =>
    rw [Core.completes, Core.attempt_of_fetch hfetch, hexecute, toCore_record]
    exact ⟨hrecorded hfetch htrace, (Int.add_zero _).symm⟩
  | executed hfetch htrace hexecute =>
    rw [Core.completes, Core.attempt_of_fetch hfetch, hexecute]
    exact ⟨hrecorded hfetch htrace, (Core.registers_execute hexecute).1⟩

theorem not_failedLate_of_ne (h : m.state ≠ .faulted) : ¬ m.FailedLate := fun hlate => h hlate.1

/-- A cycle that is not refused is completed. -/
theorem completes_of_cycle {pace : Pace} (h : m.cycle.answer = .ok pace) :
    m.completes = true := by
  rcases m.cycle_of_attempt with ⟨_, hanswer⟩ | ⟨_, hanswer, -⟩ | ⟨_, -, hattempt⟩
  · rw [h] at hanswer
    cases hanswer
  · rw [h] at hanswer
    cases hanswer
  · rw [Core.completes, hattempt]

/-- A step that is answered adds what its cycle adds, and leaves the machine failed late exactly if
it has fetched an instruction and not completed it. -/
theorem step_adds (hm : m.Orderly) (htraced : m.tracing = true)
    (hrunning : m.state.isTerminal = false) {s : State} (hanswer : m.step.answer = .ok s) :
    m.step.machine.trace.toList = m.trace.toList ++ m.line?.toList ∧
    m.step.machine.registers.executed =
      m.registers.executed + (if m.completes then 1 else 0) ∧
    (m.step.machine.FailedLate ↔ (∃ i, m.fetch = .ok i) ∧ m.completes = false) := by
  rcases step_cases hrunning with ⟨hcycle, -, hmachine⟩ | ⟨hcycle, -, hmachine⟩ |
    ⟨fault, hcycle, -, hmachine⟩ | ⟨error, -, herror, -⟩
  case inr.inr.inr =>
    rw [herror] at hanswer
    cases hanswer
  all_goals
    obtain ⟨htrace, hexecuted⟩ := cycle_adds htraced (by simp [hcycle])
    rw [hmachine]
    refine ⟨htrace, hexecuted, ?_⟩
  · refine iff_of_false (not_failedLate_of_ne ?_) (by simp [completes_of_cycle hcycle])
    simp [inState]
  · refine iff_of_false (not_failedLate_of_ne ?_) (by simp [completes_of_cycle hcycle])
    simp [inState]
  · have hattempt := attempt_of_cycle_fault hcycle
    have hfails : m.completes = false := by
      rw [Core.completes, hattempt]
    rw [← hm.core.isLate_iff hattempt]
    simp [FailedLate, inState, hfails]

/-- **A step keeps the account**, with one more cycle. -/
theorem Accounts.step (h : m.Accounts cycles) (hm : m.Orderly) (htraced : m.tracing = true)
    (hrunning : m.state.isTerminal = false) {s : State} (hanswer : m.step.answer = .ok s) :
    m.step.machine.Accounts (cycles ++ [m.toCore]) := by
  obtain ⟨htrace, hexecuted, hlate⟩ := step_adds hm htraced hrunning hanswer
  have hnone : ¬ m.FailedLate := by
    refine not_failedLate_of_ne fun hstate => ?_
    rw [hstate] at hrunning
    cases hrunning
  have hsize : m.step.machine.trace.size =
      cycles.countP Core.completes + m.line?.toList.length := by
    rw [← Array.length_toList, htrace, List.length_append, Array.length_toList, h.timely hnone]
  refine ⟨?_, ?_, fun hfailed => ?_, fun hfailed => ?_⟩
  · rw [htrace, h.trace, List.filterMap_append]
    cases hline : m.line? <;> simp [hline]
  · rw [hexecuted, h.executed, List.countP_append, List.countP_singleton]
    split <;> simp
  · obtain ⟨⟨i, hfetch⟩, hfails⟩ := hlate.1 hfailed
    have hline : m.line? = some (m.toCore.line i) := by rw [Core.line?, hfetch]
    rw [hsize, hline, List.countP_append, List.countP_singleton, hfails]
    rfl
  · -- the cycle has no line and fails, or it has one and is completed
    rw [hsize, List.countP_append, List.countP_singleton]
    cases hfetch : m.fetch with
    | error failure =>
      have hline : m.line? = none := by rw [Core.line?, hfetch]
      rw [hline, Core.completes, Core.attempt_of_fetch_error hfetch]
      rfl
    | ok i =>
      have hline : m.line? = some (m.toCore.line i) := by rw [Core.line?, hfetch]
      have hdone : m.completes = true := by
        by_contra hfails
        exact hfailed (hlate.2 ⟨⟨i, hfetch⟩, Bool.eq_false_iff.2 hfails⟩)
      rw [hline, hdone]
      rfl

theorem Accounts.inState (h : m.Accounts cycles) {s : State} (hm : m.state ≠ .faulted)
    (hs : s ≠ .faulted) : (m.inState s).Accounts cycles :=
  ⟨h.trace, h.executed, fun hlate => absurd hlate (not_failedLate_of_ne hs),
    fun _ => h.timely (not_failedLate_of_ne hm)⟩

/-! ### Runs -/

/-- Whether a machine is in order, is traced, and has an account of its cycles. -/
structure Recorded (m : Machine) (cycles : List Core) : Prop where
  orderly : m.Orderly
  tracing : m.tracing = true
  accounts : m.Accounts cycles

theorem Recorded.step (h : m.Recorded cycles) (hrunning : m.state.isTerminal = false) {s : State}
    (hanswer : m.step.answer = .ok s) : m.step.machine.Recorded (cycles ++ [m.toCore]) :=
  ⟨h.orderly.step, m.settings_step.2.2.trans h.tracing,
    h.accounts.step h.orderly h.tracing hrunning hanswer⟩

theorem Recorded.rest (h : m.Recorded cycles) (hm : m.state = .ready) (request : Execution) :
    (m.inState request.rest).Recorded cycles := by
  have hne : m.state ≠ .faulted := by simp [hm]
  cases request with
  | step =>
    rw [Execution.rest, inState_of_eq hm]
    exact h
  | run answers asked =>
    exact ⟨h.orderly.stop hm, h.tracing, h.accounts.inState hne (by simp [Execution.rest])⟩

/-- Steps that go on keep the account, with as many more cycles. -/
theorem Recorded.stepped (h : m.Recorded cycles) {n : Nat} (hgoes : ∀ k < n, (m.stepped k).goesOn) :
    (m.stepped n).Recorded (cycles ++ (List.range n).map fun k => (m.stepped k).toCore) := by
  induction n with
  | zero => simpa [Machine.stepped] using h
  | succ n ih =>
    have hlast := ih fun k hk => hgoes k (Nat.lt_succ_of_lt hk)
    have hgoes := hgoes n (Nat.lt_succ_self n)
    have hnext := hlast.step (isTerminal_of_goesOn hgoes) (goesOn_iff.1 hgoes)
    rw [stepped_succ, List.range_succ, List.map_append, ← List.append_assoc]
    exact hnext

/-- **A request keeps the account**, with its cycles. -/
theorem Recorded.perform (h : m.Recorded cycles) (request : Execution) {s : State}
    (hanswer : (m.perform request).answer = .ok s) :
    (m.perform request).machine.Recorded (cycles ++ m.cyclesOf request) := by
  cases hm : m.state.isTerminal with
  | true =>
    rw [cyclesOf, if_pos hm, List.append_nil, (perform_of_isTerminal hm request).2.1]
    exact h
  | false =>
    rw [cyclesOf, if_neg (by rw [hm]; exact Bool.false_ne_true)]
    have hperformance := m.performance request
    generalize (m.perform request).answer = answer, (m.perform request).machine = machine
      at hanswer hperformance
    cases hperformance with
    | @ended n hn hbefore hlast =>
      rw [begun_of_last hn hbefore hlast, ← List.append_assoc]
      refine (h.stepped hbefore).step ?_ hanswer
      cases n with
      | zero => exact hm
      | succ n =>
        rw [state_stepped_of_goesOn (Nat.succ_pos n) hbefore]
        rfl
    | rested hbefore =>
      have hlast := h.stepped hbefore
      have hready := state_stepped_of_goesOn (m.demand_pos request) hbefore
      rw [begun_of_goesOn hbefore]
      exact hlast.rest hready request

theorem Recorded.after (h : m.Recorded cycles) {requests : List Execution}
    (hanswers : ∀ seen ∈ m.observations requests, ∃ s, seen.answer = .ok s) :
    (m.after requests).Recorded (cycles ++ m.cyclesAfter requests) := by
  induction requests generalizing m cycles with
  | nil => rwa [cyclesAfter, List.append_nil]
  | cons request requests ih =>
    rw [observations] at hanswers
    obtain ⟨s, hanswer⟩ := hanswers _ (List.mem_cons_self ..)
    rw [cyclesAfter, ← List.append_assoc]
    exact ih (h.perform request hanswer) fun seen hseen =>
      hanswers seen (List.mem_cons_of_mem _ hseen)

theorem recorded_load (hm : m.Fitted) {program : List Word}
    (hload : (m.load program).answer = .ok ()) :
    ((m.load program).machine.setTracing true).Recorded [] := by
  obtain ⟨hregisters, hready, -, htrace⟩ := (Fresh.load hload).rewound
  have horderly := orderly_load hm hload
  generalize (m.load program).machine = loaded at *
  have hnone : ¬ (loaded.setTracing true).FailedLate :=
    not_failedLate_of_ne (show loaded.state ≠ .faulted by simp [hready])
  refine ⟨⟨horderly.core, horderly.room, horderly.faulted, horderly.unfaulted⟩, rfl, ?_, ?_,
    fun h => absurd h hnone, fun _ => ?_⟩
  · show loaded.trace.toList = _
    rw [htrace]
    rfl
  · show loaded.registers.executed = _
    rw [hregisters]
    rfl
  · show loaded.trace.size = _
    rw [htrace]
    rfl

/-- A program whose fourth instruction loads from a name that was never declared. -/
def misspelt : List Word :=
  [.text "LDI 1", .text "DEC X", .text "STR X", .text "LDA Y", .text "HLT"]

end Machine

end Accumulator
