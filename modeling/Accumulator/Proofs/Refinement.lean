import Accumulator.Proofs.Variables
import Mathlib.Data.Nat.Find

/-!
# Machines refine variable machines

A machine whose program fits below data memory does what the variable machine of the same lines
does, step by step, with the same answers and the same faults (`Follows.step`).  There is one
exception: a variable takes any integer, and a cell only one that can be written out.  A machine
that comes to such a store is left where it is, with no fault to say why, and so it is after every
further step (`Follows.stuck`), while the variable machine goes on.  `refines_variables` says that
nothing else sets them apart.
-/

namespace Accumulator

namespace Machine

variable {m : Machine} {v : VariableMachine}

/-! ### Steps -/

/-- The machine represents the variable machine, is in the same state, and was stopped by the same
fault. -/
structure Agrees (m : Machine) (v : VariableMachine) : Prop where
  represents : m.Represents v
  state : m.state = v.state
  fault : m.fault.map Fault.gist = v.fault.map Fault.gist

/-- The machine agrees with the variable machine, and goes on doing so. -/
structure Follows (m : Machine) (v : VariableMachine) : Prop where
  core : m.Simulates v
  untraced : m.tracing = false
  state : m.state = v.state
  fault : m.fault.map Fault.gist = v.fault.map Fault.gist

/-- A cycle comes to the same in both machines, unless it stores an integer that is too long. -/
theorem cycle_together (h : m.Simulates v) (hm : m.tracing = false)
    (hrunning : v.state.isTerminal = false) (hstore : ¬ v.StoresOverlong) :
    (∃ f g, m.cycle.answer = .error f ∧ v.cycle = .error g ∧ f.gist = g.gist) ∨
      ∃ w pace, m.cycle.answer = .ok pace ∧ v.cycle = .ok (w, pace) ∧
        m.cycle.machine.Simulates w := by
  have hcycle := m.cycleOutcome
  generalize m.cycle = report at hcycle
  rcases h.fetch_cases with ⟨i, hi, hj⟩ | ⟨f, g, hf, hg, hgist⟩
  · have hfits : ∀ name n, i = .store name → v.value? name = some n →
        Numeral.fits v.registers.accumulator := by
      rintro name n rfl hvalue
      by_contra hfits
      exact hstore ⟨hrunning, Bool.eq_false_iff.2 hfits, name, n, hj, hvalue⟩
    have htogether := Core.together_execute h i hfits
    obtain ⟨hwithin, hformed⟩ := VariableMachine.of_fetch hj
    rw [VariableMachine.cycle_of_fetch hj]
    cases hcycle with
    | unfetched hfetch =>
      rw [hi] at hfetch
      cases hfetch
    | untraced _ htrace =>
      -- without tracing there is no line that could be too long
      rw [traceLine?_of_untraced hm] at htrace
      cases htrace
    | refused hfetch _ hexecute =>
      obtain rfl := Except.ok.inj (hi.symm.trans hfetch)
      rcases htogether with ⟨failure, hd, hw⟩ | ⟨d, w, hd, -, -⟩
      · rw [hexecute] at hd
        rw [hw]
        exact Or.inl ⟨_, _, rfl, rfl, congrArg Failure.gist (Except.error.inj hd)⟩
      · rw [hexecute] at hd
        cases hd
    | executed hfetch _ hexecute =>
      obtain rfl := Except.ok.inj (hi.symm.trans hfetch)
      rcases htogether with ⟨failure, hd, -⟩ | ⟨d, w, hd, hw, hrepresents⟩
      · rw [hexecute] at hd
        cases hd
      · obtain rfl := Except.ok.inj (hexecute.symm.trans hd)
        rw [hw]
        exact Or.inr ⟨w, _, rfl, rfl, h.execute hformed hwithin hd hw hrepresents⟩
  · rw [VariableMachine.cycle_of_fetch_error hg]
    cases hcycle with
    | unfetched hfetch =>
      obtain rfl := Except.error.inj (hf.symm.trans hfetch)
      exact Or.inl ⟨_, _, rfl, rfl, hgist⟩
    | untraced hfetch => rw [hf] at hfetch; cases hfetch
    | refused hfetch => rw [hf] at hfetch; cases hfetch
    | executed hfetch => rw [hf] at hfetch; cases hfetch

/-- **A step comes to the same in both machines**, unless it stores an integer that is too long. -/
theorem Follows.step (h : m.Follows v) (hstore : ¬ v.StoresOverlong) :
    m.step.machine.Follows v.step.1 ∧ m.step.answer = v.step.2 := by
  cases hv : v.state.isTerminal with
  | true =>
    have hm : m.state.isTerminal = true := by rw [h.state, hv]
    rw [VariableMachine.step, hv, if_pos rfl, Machine.step, hm]
    exact ⟨h, congrArg Except.ok h.state⟩
  | false =>
    have hm : m.state.isTerminal = false := by rw [h.state, hv]
    have huntraced : m.cycle.machine.tracing = false := m.settings_cycle.2.2.trans h.untraced
    have hfault : m.cycle.machine.fault = m.fault := by rw [frame_cycle]
    have hok : ∀ w pace, v.cycle = .ok (w, pace) →
        m.cycle.machine.fault.map Fault.gist = w.fault.map Fault.gist := by
      intro w pace hcycle
      obtain ⟨i, -, hexecute⟩ := VariableMachine.of_cycle hcycle
      rw [hfault, (VariableMachine.frame_execute hexecute).1, h.fault]
    have hcore : ∀ failure, m.cycle.answer = .error failure →
        m.cycle.machine.Simulates v := by
      intro failure hcycle
      rw [toCore_cycle_of_error hcycle]
      exact h.core
    have htogether := cycle_together h.core h.untraced hv hstore
    rw [VariableMachine.step, hv, if_neg Bool.false_ne_true]
    -- the four ends of a step are told apart by the answer of the cycle
    rcases step_cases hm with ⟨hcycle, hanswer, hmachine⟩ | ⟨hcycle, hanswer, hmachine⟩ |
      ⟨fault, hcycle, hanswer, hmachine⟩ | ⟨error, hcycle, hanswer, hmachine⟩
    all_goals rw [hcycle] at htogether
    all_goals rw [hanswer, hmachine]
    · obtain ⟨w, pace, hpace, hw, hsimulates⟩ := htogether.resolve_left (by simp)
      obtain rfl := Except.ok.inj hpace
      rw [hw]
      exact ⟨⟨hsimulates.of_state _ _, huntraced, rfl, hok w _ hw⟩, rfl⟩
    · obtain ⟨w, pace, hpace, hw, hsimulates⟩ := htogether.resolve_left (by simp)
      obtain rfl := Except.ok.inj hpace
      rw [hw]
      exact ⟨⟨hsimulates.of_state _ _, huntraced, rfl, hok w _ hw⟩, rfl⟩
    · obtain ⟨f, g, hf, hg, hgist⟩ := htogether.resolve_right (by simp)
      obtain rfl := Except.error.inj hf
      cases g with
      | overlong error => cases hgist
      | fault met =>
        rw [hg]
        exact ⟨⟨(hcore _ hcycle).of_state _ _, huntraced, rfl,
          congrArg some (Except.ok.inj hgist)⟩, rfl⟩
    · obtain ⟨f, g, hf, hg, hgist⟩ := htogether.resolve_right (by simp)
      obtain rfl := Except.error.inj hf
      cases g with
      | fault met => cases hgist
      | overlong error' =>
        obtain rfl := Except.error.inj hgist
        rw [hg]
        refine ⟨⟨(hcore _ hcycle).of_state _ _, huntraced, rfl, ?_⟩, rfl⟩
        show m.cycle.machine.fault.map Fault.gist = v.fault.map Fault.gist
        rw [hfault, h.fault]

/-- A store of an integer that is too long leaves the machine where it is. -/
theorem Follows.step_of_storesOverlong (h : m.Follows v) (hstore : v.StoresOverlong) :
    m.step.answer = .error .writing ∧ m.step.machine = m.inState .running := by
  have hm : m.state.isTerminal = false := by rw [h.state, hstore.running]
  obtain ⟨name, n, hfetch, hvalue⟩ := hstore.store
  obtain ⟨address, hbound, -⟩ := h.core.declared name n hvalue
  have hoverlong := hstore.overlong
  rw [← h.core.registers] at hoverlong
  have hexecute := Core.execute_store_of_not_fits hbound hoverlong
  have hcycle : m.cycle =
      ⟨m, .error (.overlong .writing), #[.decoded m.registers.programCounter (.store name)]⟩ := by
    rcases h.core.fetch_cases with ⟨i, hi, hj⟩ | ⟨_, _, -, hg, -⟩
    · rw [hfetch] at hj
      obtain rfl := Except.ok.inj hj
      rw [cycle, hi]
      dsimp only
      rw [traceLine?_of_untraced h.untraced]
      dsimp only
      rw [record, hexecute]
    · rw [hfetch] at hg
      cases hg
  rw [step_eq_settle hm, hcycle]
  exact ⟨rfl, rfl⟩

/-- A machine that came to such a store stays there. -/
theorem Follows.stuck (h : m.Follows v) (hstore : v.StoresOverlong) (n : Nat) :
    m.stepped (n + 1) = m.inState .running := by
  have hm : m.state.isTerminal = false := by rw [h.state, hstore.running]
  obtain ⟨-, hmachine⟩ := h.step_of_storesOverlong hstore
  -- a step does not depend on the state, so the next one fails in the same way
  induction n with
  | zero => exact hmachine
  | succ n ih => rw [stepped_succ, ih, step_inState hm rfl, hmachine]

/-! ### Runs of steps -/

theorem Follows.stepped (h : m.Follows v) {n : Nat}
    (hstore : ∀ k < n, ¬ (v.stepped k).StoresOverlong) :
    (m.stepped n).Follows (v.stepped n) := by
  induction n with
  | zero => exact h
  | succ n ih =>
    have hlast := ih fun k hk => hstore k (Nat.lt_succ_of_lt hk)
    rw [stepped_succ, VariableMachine.stepped_succ]
    exact (hlast.step (hstore n (Nat.lt_succ_self n))).1

theorem Follows.agrees (h : m.Follows v) : m.Agrees v :=
  ⟨h.core.toRepresents, h.state, h.fault⟩

/-- Once the variable machine has stored what is too long, it is ahead for good. -/
theorem Follows.not_agrees (h : m.Follows v) (hstore : v.StoresOverlong) (n : Nat) :
    ¬ (m.stepped (n + 1)).Agrees (v.stepped (n + 1)) := by
  intro hagrees
  -- the machine no longer counts instructions, and the count of the other never goes back
  have hcount : m.registers.executed = (v.stepped (n + 1)).registers.executed := by
    rw [← hagrees.represents.registers, h.stuck hstore]
    rfl
  have hlater : v.step.1.registers.executed ≤ (v.stepped (n + 1)).registers.executed :=
    v.step.1.executed_le_stepped n
  rw [hstore.executed_step, ← hcount, h.core.registers] at hlater
  omega

/-- A machine with a program that fits below data memory follows the variable machine of its
lines. -/
theorem follows_load (hm : m.Fitted) (huntraced : m.tracing = false)
    (hroom : Memory.dataStart ≤ m.memory.size) {lines : List String}
    (hshort : lines.length ≤ Memory.dataStart) :
    (m.load (lines.map .text)).answer = .ok () ∧
      (m.load (lines.map .text)).machine.Follows { lines, memorySize := m.memory.size } := by
  obtain ⟨memory, hmemory⟩ : ∃ memory, (Memory.blank m.memory.size).load (lines.map .text) =
      .ok memory := by
    refine ⟨_, dif_pos ?_⟩
    rw [List.length_map]
    exact Int.le_trans hshort hroom
  have hload : m.load (lines.map .text) = ⟨{ m with memory, program := lines.map .text }.rewind,
      .ok (), (loadingEvents (lines.map Word.text).length).push
        (.programLoaded (lines.map Word.text).length)⟩ := by
    rw [load, hmemory]
  have hanswer : (m.load (lines.map .text)).answer = .ok () := by rw [hload]
  have hlayout := layout_load hm hanswer
  have hfitted := fitted_load hm (lines.map .text)
  refine ⟨hanswer, ?_⟩
  rw [hload] at hlayout hfitted ⊢
  have hrepresents : Core.Represents ({ m with memory, program := lines.map .text }.rewind).toCore
      { lines, memorySize := m.memory.size } := by
    refine ⟨rfl, ?_, fun _ _ => rfl, fun _ _ h => ?_⟩
    · show m.symbols.dataStart = Memory.dataStart + 0
      rw [hm.dataStart, Int.add_zero]
    · cases h
  exact ⟨⟨hrepresents, hlayout, hfitted, hroom, hshort,
    fits_of_le_maxIndex (Int.le_refl 0) (show 0 ≤ maxIndex by decide)⟩, huntraced, rfl, rfl⟩

/-- **Machines refine variable machines up to the first overlong store.**  A program of at most as
many lines as fit below data memory is loaded, and after any number of steps the machine agrees with
the variable machine of the lines exactly if none of these steps stored an integer that is too long.
Up to there the answers of all steps are the same; a machine that comes to such a store answers that
it cannot write the integer, and stays where it is for good. -/
theorem refines_variables (hm : Reachable m) (huntraced : m.tracing = false)
    (hroom : 128 ≤ m.memory.size) {lines : List String} (hshort : lines.length ≤ 128) (n : Nat) :
    let loaded := (m.load (lines.map .text)).machine
    let v : VariableMachine := { lines, memorySize := m.memory.size }
    (m.load (lines.map .text)).answer = .ok () ∧
    ((loaded.stepped n).Agrees (v.stepped n) ↔ ∀ k < n, ¬ (v.stepped k).StoresOverlong) ∧
    ((∀ k < n, ¬ (v.stepped k).StoresOverlong) →
      (∀ k < n, (loaded.stepped k).step.answer = (v.stepped k).step.2) ∧
      ((v.stepped n).StoresOverlong → ∀ j,
        (loaded.stepped (n + j)).step.answer = .error .writing ∧
          loaded.stepped (n + j + 1) = (loaded.stepped n).inState .running)) := by
  intro loaded v
  obtain ⟨hanswer, hfollows⟩ : (m.load (lines.map .text)).answer = .ok () ∧ loaded.Follows v :=
    follows_load hm.fitted huntraced hroom (Int.ofNat_le.2 hshort)
  refine ⟨hanswer, ⟨fun hagrees => ?_, fun hstore => (hfollows.stepped hstore).agrees⟩, ?_⟩
  · by_contra hstore
    have hexists : ∃ k, k < n ∧ (v.stepped k).StoresOverlong := by
      simpa using hstore
    -- the first of these stores is where the machine is left behind
    classical
    obtain ⟨hk, hfirst⟩ := Nat.find_spec hexists
    have hbefore : ∀ j < Nat.find hexists, ¬ (v.stepped j).StoresOverlong := fun j hj hstore =>
      Nat.find_min hexists hj ⟨Nat.lt_trans hj hk, hstore⟩
    generalize Nat.find hexists = k at hk hfirst hbefore
    obtain ⟨j, rfl⟩ : ∃ j, n = k + (j + 1) := ⟨n - k - 1, by omega⟩
    rw [stepped_add, VariableMachine.stepped_add] at hagrees
    exact (hfollows.stepped hbefore).not_agrees hfirst j hagrees
  · intro hstore
    refine ⟨fun k hk => ?_, fun hlast j => ?_⟩
    · have hfollows' := hfollows.stepped fun i hi => hstore i (Nat.lt_trans hi hk)
      exact (hfollows'.step (hstore k hk)).2
    · have hfollows' := hfollows.stepped hstore
      have hrunning : (loaded.stepped n).state.isTerminal = false := by
        rw [hfollows'.state, hlast.running]
      have hstep := hfollows'.step_of_storesOverlong hlast
      refine ⟨?_, ?_⟩
      · cases j with
        | zero => exact hstep.1
        | succ j =>
          rw [stepped_add, hfollows'.stuck hlast, step_inState hrunning rfl]
          exact hstep.1
      · rw [Nat.add_assoc, stepped_add, hfollows'.stuck hlast]

/-- A program that stores what it was given plus one. -/
def increment : List String := ["DEC X", "LDI 41", "XCH", "LDI 1", "ADD", "STR X", "HLT"]

theorem refines_variables_increment :
    let m := blank 1 (by decide) 129
    let v : VariableMachine := { lines := increment, memorySize := 129 }
    (Reachable m ∧ m.tracing = false ∧ 128 ≤ m.memory.size ∧ increment.length ≤ 128) ∧
      ((m.load (increment.map .text)).machine.stepped 7).Agrees (v.stepped 7) ∧
      (v.stepped 7).value? "X" = some 42 := by
  intro m v
  have hm : Reachable m := .new (show Machine.new 1 129 = .ok m from rfl)
  obtain ⟨-, hagrees, -⟩ :=
    refines_variables hm rfl (by decide) (show increment.length ≤ 128 by decide) 7
  have hfits : ∀ k < 7, Numeral.fits (v.stepped k).registers.accumulator := by decide +kernel
  refine ⟨⟨hm, rfl, by decide, by decide⟩, hagrees.2 fun k hk hstore => ?_, by decide +kernel⟩
  exact Bool.false_ne_true (hstore.overlong.symm.trans (hfits k hk))

/-- A program that stores the integer behind `n`. -/
def successor (n : Int) : List Instruction :=
  [.declare "X", .loadImmediate n, .exchange, .loadImmediate 1, .add, .store "X"]

theorem wellFormed_successor {n : Int} (hn : Numeral.fits n) {i : Instruction}
    (hi : i ∈ successor n) : i.WellFormed := by
  have hname : (Operand.symbol "X").WellFormed := show isName "X" by decide
  have hone : (Operand.integer 1).WellFormed := fits_of_le_maxIndex (by decide) (by decide)
  simp only [successor, List.mem_cons, List.not_mem_nil, or_false] at hi
  intro operand hoperand
  rcases hi with rfl | rfl | rfl | rfl | rfl | rfl
  · exact Option.some.inj hoperand ▸ hname
  · exact Option.some.inj hoperand ▸ hn
  · cases hoperand
  · exact Option.some.inj hoperand ▸ hone
  · cases hoperand
  · exact Option.some.inj hoperand ▸ hname

theorem fetch_successor {n : Int} (hn : Numeral.fits n) {v : VariableMachine} {k : Nat}
    {i : Instruction} (hlines : v.lines = (successor n).map Instruction.text)
    (hsize : v.memorySize = 256) (hpc : v.registers.programCounter = k)
    (hi : (successor n)[k]? = some i) : v.fetch = .ok i := by
  obtain ⟨hk, hget⟩ := List.getElem?_eq_some_iff.1 hi
  have hlength : (successor n).length = 6 := rfl
  refine VariableMachine.fetch_of_text hpc (by omega) ?_ ?_
  · rw [hlines, List.getElem?_map, hi]
    rfl
  · rw [← hget]
    exact wellFormed_successor hn (List.getElem_mem hk)

/-- The variable machine of that program before its first step. -/
def successorStart (n : Int) : VariableMachine :=
  { lines := (successor n).map Instruction.text, memorySize := 256 }

/-- The variable machine of that program when it has declared its variable. -/
def successorAt (n : Int) (registers : Registers) : VariableMachine :=
  { successorStart n with
    registers
    value? := fun other => if other = "X" then some 0 else none
    declared := 1 }

/-- What that program has in its registers after its declaration and `k` more steps, up to its
store. -/
def successorRegisters (n : Int) : Nat → Registers
  | 0 => { programCounter := 1, executed := 1 }
  | 1 => { accumulator := n, programCounter := 2, executed := 2 }
  | 2 => { data := n, programCounter := 3, executed := 3 }
  | 3 => { accumulator := 1, data := n, programCounter := 4, executed := 4 }
  | _ =>
    { accumulator := 1 + n
      data := n
      programCounter := 5
      zero := decide (1 + n = 0)
      overflow := decide (1 + n < -2147483648 ∨ 2147483647 < 1 + n)
      executed := 5 }

theorem step_successorStart {n : Int} (hn : Numeral.fits n) :
    (successorStart n).step = (successorAt n (successorRegisters n 0), .ok .ready) := by
  have hfetch : (successorStart n).fetch = .ok (.declare "X") :=
    fetch_successor hn (k := 0) rfl rfl rfl rfl
  rw [VariableMachine.step_of_execute rfl hfetch rfl rfl]
  rfl

theorem step_successorAt {n : Int} (hn : Numeral.fits n) {k : Nat} (hk : k < 4) :
    (successorAt n (successorRegisters n k)).step =
      (successorAt n (successorRegisters n (k + 1)), .ok .ready) := by
  have hfetch : ∀ i, (successor n)[k + 1]? = some i →
      (successorAt n (successorRegisters n k)).fetch = .ok i := by
    intro i hi
    refine fetch_successor hn rfl rfl ?_ hi
    obtain rfl | rfl | rfl | rfl : k = 0 ∨ k = 1 ∨ k = 2 ∨ k = 3 := by omega
    all_goals rfl
  obtain rfl | rfl | rfl | rfl : k = 0 ∨ k = 1 ∨ k = 2 ∨ k = 3 := by omega
  · exact VariableMachine.step_of_execute rfl (hfetch (.loadImmediate n) rfl) rfl rfl
  · exact VariableMachine.step_of_execute rfl (hfetch .exchange rfl) rfl rfl
  · exact VariableMachine.step_of_execute rfl (hfetch (.loadImmediate 1) rfl) rfl rfl
  · exact VariableMachine.step_of_execute rfl (hfetch .add rfl) rfl rfl

theorem stepped_successor {n : Int} (hn : Numeral.fits n) {k : Nat} (hk : k ≤ 4) :
    (successorStart n).stepped (k + 1) = successorAt n (successorRegisters n k) := by
  induction k with
  | zero => exact congrArg Prod.fst (step_successorStart hn)
  | succ k ih =>
    rw [VariableMachine.stepped_succ, ih (by omega), step_successorAt hn (by omega)]

/-- Up to its store the program has nothing too long in its accumulator. -/
theorem not_storesOverlong_successor {n : Int} (hn : Numeral.fits n) {k : Nat} (hk : k < 5) :
    ¬ ((successorStart n).stepped k).StoresOverlong := by
  have hzero : Numeral.fits 0 := fits_of_le_maxIndex (by decide) (by decide)
  have hone : Numeral.fits 1 := fits_of_le_maxIndex (by decide) (by decide)
  have hfits : Numeral.fits ((successorStart n).stepped k).registers.accumulator := by
    cases k with
    | zero => exact hzero
    | succ k =>
      rw [stepped_successor hn (by omega)]
      obtain rfl | rfl | rfl | rfl : k = 0 ∨ k = 1 ∨ k = 2 ∨ k = 3 := by omega
      · exact hzero
      · exact hn
      · exact hzero
      · exact hone
  intro hstore
  exact Bool.false_ne_true (hstore.overlong.symm.trans hfits)

/-- If `n` can be written out and the integer behind it cannot, the variable machine goes on after
the store and the machine is left there. -/
theorem successor_left_behind {n : Int} (hn : Numeral.fits n)
    (hoverlong : Numeral.fits (1 + n) = false) :
    let m := blank 1000 (by decide) 256
    let loaded := (m.load (((successor n).map Instruction.text).map .text)).machine
    let v := successorStart n
    (loaded.stepped 5).Agrees (v.stepped 5) ∧
      (v.stepped 5).step.2 = .ok .ready ∧ (v.stepped 6).value? "X" = some (1 + n) ∧
      (loaded.stepped 5).step.answer = .error .writing ∧
      ¬ (loaded.stepped 6).Agrees (v.stepped 6) := by
  intro m loaded v
  have hnew : Machine.new 1000 256 = .ok m := rfl
  have hshort : v.lines.length ≤ Memory.dataStart := show (6 : Int) ≤ 128 by decide
  have hfollows : loaded.Follows v :=
    (follows_load (fitted_new hnew) rfl (show (128 : Int) ≤ 256 by decide) hshort).2
  have hlast : v.stepped 5 = successorAt n (successorRegisters n 4) :=
    stepped_successor hn (Nat.le_refl 4)
  have hfetch : (successorAt n (successorRegisters n 4)).fetch = .ok (.store "X") :=
    fetch_successor hn (k := 5) rfl rfl rfl rfl
  have hvalue : (successorAt n (successorRegisters n 4)).value? "X" = some 0 := rfl
  have hexecute : (successorAt n (successorRegisters n 4)).execute (.store "X") =
      .ok ((successorAt n (successorRegisters n 4)).assign "X" (1 + n)).goOn := by
    rw [VariableMachine.execute, hvalue]
    rfl
  have hstep := VariableMachine.step_of_execute rfl hfetch hexecute rfl
  have hstore : (v.stepped 5).StoresOverlong := by
    rw [hlast]
    exact ⟨rfl, hoverlong, "X", 0, hfetch, hvalue⟩
  have hfive := hfollows.stepped fun k hk => not_storesOverlong_successor hn hk
  refine ⟨hfive.agrees, ?_, ?_, (hfive.step_of_storesOverlong hstore).1, ?_⟩
  · rw [hlast, hstep]
  · rw [VariableMachine.stepped_succ, hlast, hstep]
    rfl
  · have hagrees := hfive.not_agrees hstore 0
    rwa [← stepped_add, ← VariableMachine.stepped_add] at hagrees

/-- Machines do not refine variable machines for ever. -/
theorem not_always_agrees : ¬ ∀ m : Machine, Reachable m → m.tracing = false →
    128 ≤ m.memory.size → ∀ lines : List String, lines.length ≤ 128 → ∀ n : Nat,
      ((m.load (lines.map .text)).machine.stepped n).Agrees
        (VariableMachine.stepped { lines, memorySize := m.memory.size } n) := by
  intro h
  obtain ⟨hfits, hoverlong⟩ := Numeral.fits_bound_pred
  obtain ⟨-, -, -, -, hagrees⟩ := successor_left_behind hfits hoverlong
  have hnew : Machine.new 1000 256 = .ok (blank 1000 (by decide) 256) := rfl
  have hshort : ((successor (Numeral.bound - 1)).map Instruction.text).length ≤ 128 := by decide
  exact hagrees (h _ (.new hnew) rfl (show (128 : Int) ≤ 256 by decide) _ hshort 6)

end Machine

end Accumulator
