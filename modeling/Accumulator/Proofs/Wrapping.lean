import Accumulator.Proofs.History
import Accumulator.Proofs.Overlong
import Accumulator.Proofs.WordMachine

/-!
# Integers as words

A machine with a program of literals in the signed 32-bit range does what a word machine does, step
by step, until an addition or subtraction overflows for the first time; and it sets the overflow
flag there as the word machine does (`agrees_with_words_until_overflow`).

The invariant is `Tracks`.  The registers of the machine are the integers of words, and every data
cell is untouched or holds the text of an integer in range (`HoldsWords`), so that what is loaded
from a cell is in range again.  Literals are in range because whatever is fetched is in the program.
An instruction then comes to the same in both machines, or it overflows in both (`wraps_execute`).
-/

namespace Accumulator

open Numeral (decimal)

/-- An integer in the signed 32-bit range can be written out. -/
theorem fits_of_inInt32 {n : Int} (h : inInt32 n) : Numeral.fits n := by
  have hroom : (2147483648 : Int).natAbs < Numeral.bound := by decide +kernel
  have hbounds := inInt32_iff.1 h
  exact Numeral.fits_of_natAbs_le (by omega) hroom

theorem Instruction.wellFormed_loadImmediate {n : Int} (h : inInt32 n) :
    (loadImmediate n).WellFormed := by
  rintro operand ⟨⟩
  exact fits_of_inInt32 h

namespace Core

variable {c : WordCore} {program : List Word}

/-- Whether a deed is an addition or subtraction that sets the overflow flag. -/
def Deed.Overflows (deed : Deed) : Prop :=
  (deed.instruction = .add ∨ deed.instruction = .subtract) ∧
    deed.after.registers.overflow = true

/-- Whether no deed of a history sets the overflow flag. -/
def InBounds (history : List Deed) : Prop := ∀ deed ∈ history, ¬ deed.Overflows

/-- Whether every data cell is untouched or holds the decimal text of an integer in the signed
32-bit range. -/
def HoldsWords (c : Core) : Prop :=
  ∀ address word, Memory.dataStart ≤ address → c.memory.read address = .ok word →
    word = .empty ∨ ∃ n, inInt32 n ∧ word = .text (decimal n)

theorem HoldsWords.of_eq {d e : Core} (h : d.HoldsWords) (hmemory : e.memory = d.memory) :
    e.HoldsWords := by
  intro address word hdata hread
  rw [hmemory] at hread
  exact h address word hdata hread

/-! ### Instructions -/

/-- What an instruction comes to in the integers of a word core and in the word core itself. -/
inductive Wraps (i : Instruction) : Except Failure Core → Except Failure WordCore → Prop
  /-- Both fail. -/
  | failed (failure : Failure) : Wraps i (.error failure) (.error failure)
  /-- Both come to the same. -/
  | same (next : WordCore) (words : next.integers.HoldsWords) :
      Wraps i (.ok next.integers) (.ok next)
  /-- Both overflow. -/
  | overflowed {d : Core} {next : WordCore} (arithmetic : i = .add ∨ i = .subtract)
      (exact : d.registers.overflow = true) (wrapped : next.registers.overflow = true) :
      Wraps i (.ok d) (.ok next)

theorem Wraps.overflow_eq {i : Instruction} {d : Core} {next : WordCore}
    (h : Wraps i (.ok d) (.ok next)) : d.registers.overflow = next.registers.overflow := by
  cases h with
  | same => rfl
  | overflowed _ hexact hwrapped => rw [hexact, hwrapped]

/-- What does not overflow comes to the same. -/
theorem Wraps.eq_integers {i : Instruction} {d : Core} {next : WordCore}
    (h : Wraps i (.ok d) (.ok next))
    (hrange : i = .add ∨ i = .subtract → ¬ d.registers.overflow = true) :
    d = next.integers ∧ d.HoldsWords := by
  cases h with
  | same _ hwords => exact ⟨rfl, hwords⟩
  | overflowed hi hexact => exact absurd hexact (hrange hi)

/-- What is loaded from the cell of a name is in range. -/
theorem HoldsWords.inInt32_of_read (h : c.integers.HoldsWords) (hc : c.integers.Orderly program)
    {name : String} {address n : Int} (hbound : c.symbols.address? name = some address)
    (hread : c.integers.readInteger address = .ok n) : inInt32 n := by
  obtain ⟨word, hword, hn⟩ := readInteger_eq_ok_iff.1 hread
  have hwithin := hc.bound_within hbound
  rcases h address word hwithin.1 hword with rfl | ⟨k, hk, rfl⟩
  · obtain rfl : 0 = n := Option.some.inj hn
    decide
  · rw [Word.integer?, Numeral.read_decimal (fits_of_inInt32 hk)] at hn
    exact Option.some.inj hn ▸ hk

theorem HoldsWords.write (h : c.integers.HoldsWords) {address n : Int} {memory : Memory}
    (hn : inInt32 n) (hwrite : c.memory.write address (.text (decimal n)) = .ok memory) :
    HoldsWords { c.integers with memory } := by
  intro other word hdata hread
  change memory.read other = .ok word at hread
  rw [Memory.read_write hwrite] at hread
  split at hread
  · exact Or.inr ⟨n, hn, (Except.ok.inj hread).symm⟩
  · exact h other word hdata hread

theorem integers_setAccumulator {n : Int} (h : inInt32 n) :
    ((c.setAccumulator (.ofInt 32 n)).goOn).integers =
      { c.integers with registers := { c.integers.registers with accumulator := n } }.complete := by
  have hword := toInt_ofInt_of_inInt32 h
  rw [WordCore.integers, WordRegisters.integers]
  dsimp only [WordCore.setAccumulator, WordCore.goOn, WordCore.goTo]
  rw [hword]
  rfl

/-- An arithmetic result that is a word with the right flags is accepted as it is. -/
theorem integers_setResult {a : BitVec 32} {n : Int} {overflow : Bool} (ha : a.toInt = n)
    (hoverflow : overflow = !inInt32 n) :
    ((c.setResult a overflow).goOn).integers =
      { c.integers with registers := c.integers.registers.accept (.ofValue n) }.complete := by
  rw [WordCore.integers, WordRegisters.integers]
  dsimp only [WordCore.setResult, WordCore.goOn, WordCore.goTo]
  rw [beq_zero_eq, ha, hoverflow]
  rfl

theorem wraps_jump (hwords : c.integers.HoldsWords) {i : Instruction} (flag : Bool)
    (target : Int) :
    Wraps i (.ok (if flag then c.integers.jump target else c.integers.complete))
      (.ok (if flag then c.goTo target else c.goOn)) := by
  cases flag with
  | true => exact .same (c.goTo target) (hwords.of_eq rfl)
  | false => exact .same c.goOn (hwords.of_eq rfl)

theorem wraps_arithmetic (hwords : c.integers.HoldsWords) {i : Instruction}
    (hi : i = .add ∨ i = .subtract) {a : BitVec 32} {n : Int} {overflow : Bool}
    (ha : inInt32 n → a.toInt = n) (hoverflow : overflow = !inInt32 n) :
    Wraps i (.ok { c.integers with registers := c.integers.registers.accept (.ofValue n) }.complete)
      (.ok (c.setResult a overflow).goOn) := by
  cases hn : inInt32 n with
  | true =>
    rw [← integers_setResult (ha hn) hoverflow]
    exact .same _ (hwords.of_eq rfl)
  | false =>
    refine .overflowed hi ?_ ?_
    · show (!inInt32 n) = true
      rw [hn]
      rfl
    · show overflow = true
      rw [hoverflow, hn]
      rfl

/-- **An instruction comes to the same in words**, unless it overflows, and then it does so in
both. -/
theorem wraps_execute (hc : c.integers.Orderly program) (hwords : c.integers.HoldsWords)
    (i : Instruction) (hliteral : ∀ n, i = .loadImmediate n → inInt32 n) :
    Wraps i (c.integers.execute i) (c.execute i) := by
  cases i with
  | declare name =>
    rw [Core.execute, WordCore.execute]
    show Wraps _ (c.symbols.declare name >>= _) (c.symbols.declare name >>= _)
    cases c.symbols.declare name with
    | error failure => exact .failed failure
    | ok symbols => exact .same { c with symbols }.goOn (hwords.of_eq rfl)
  | load name =>
    rw [Core.execute, WordCore.execute]
    show Wraps _ (c.symbols.resolve name >>= _) (c.symbols.resolve name >>= _)
    cases hresolve : c.symbols.resolve name with
    | error failure => exact .failed failure
    | ok address =>
      show Wraps _ (c.integers.readInteger address >>= _) (c.integers.readInteger address >>= _)
      cases hread : c.integers.readInteger address with
      | error failure => exact .failed failure
      | ok n =>
        have hn := hwords.inInt32_of_read hc (SymbolTable.resolve_eq_ok_iff.1 hresolve) hread
        show Wraps _ (.ok _) (.ok _)
        rw [← integers_setAccumulator hn]
        exact .same _ (hwords.of_eq rfl)
  | loadImmediate n =>
    rw [Core.execute, WordCore.execute, ← integers_setAccumulator (hliteral n rfl)]
    exact .same _ (hwords.of_eq rfl)
  | store name =>
    have hrange := inInt32_toInt c.registers.accumulator
    have htext : Numeral.write c.integers.registers.accumulator =
        .ok (decimal c.registers.accumulator.toInt) := if_pos (fits_of_inInt32 hrange)
    rw [Core.execute, WordCore.execute, htext]
    show Wraps _ (c.symbols.resolve name >>= _) (c.symbols.resolve name >>= _)
    cases c.symbols.resolve name with
    | error failure => exact .failed failure
    | ok address =>
      show Wraps _ (c.memory.write address _ >>= _) (c.memory.write address _ >>= _)
      cases hwrite : c.memory.write address (.text (decimal c.registers.accumulator.toInt)) with
      | error failure => exact .failed failure
      | ok memory => exact .same ({ c with memory }.goOn) (hwords.write hrange hwrite)
  | exchange => exact .same { c with registers := { c.registers with
      accumulator := c.registers.data, data := c.registers.accumulator } }.goOn (hwords.of_eq rfl)
  | jump target => exact .same (c.goTo target) (hwords.of_eq rfl)
  | jumpIfZero target => exact wraps_jump hwords c.registers.zero target
  | jumpIfOverflow target => exact wraps_jump hwords c.registers.overflow target
  | add =>
    exact wraps_arithmetic hwords (Or.inl rfl) toInt_add_of_inInt32 (sumOverflows_eq _ _)
  | subtract =>
    exact wraps_arithmetic hwords (Or.inr rfl) toInt_sub_of_inInt32 (differenceOverflows_eq _ _)
  | halt => exact .same (c.goTo c.registers.programCounter) (hwords.of_eq rfl)

end Core

open Accumulator.Core (Deed Leads)

namespace Machine

variable {m : Machine} {w : WordMachine}

/-- Whether a machine and a word machine are alike: registers, memory, symbols, state and fault. -/
structure AgreesInWords (m : Machine) (w : WordMachine) : Prop where
  core : m.toCore = w.integers
  state : m.state = w.state
  fault : m.fault = w.fault

/-- The machine agrees with the word machine, and goes on doing so until it overflows. -/
structure Tracks (m : Machine) (w : WordMachine) : Prop extends AgreesInWords m w where
  orderly : m.Orderly
  words : m.toCore.HoldsWords
  literals : ∀ pc n, IsLine m.program pc (.loadImmediate n) → inInt32 n
  batchSize : m.batchSize = w.batchSize

/-! ### Steps -/

/-- With its registers in range a machine can write every trace line. -/
theorem Tracks.exists_traceLine? (h : m.Tracks w) (i : Instruction) :
    ∃ line?, m.traceLine? i = .ok line? := by
  have hwritable : m.registers.Writable := by
    refine ⟨h.orderly.core.counter, ?_, ?_⟩
    all_goals
      rw [h.core]
      exact fits_of_inInt32 (inInt32_toInt _)
  obtain ⟨line, hline⟩ := traceLine_of_writable hwritable i
  unfold traceLine?
  split
  · rw [hline]
    exact ⟨_, rfl⟩
  · exact ⟨_, rfl⟩

/-- What a cycle comes to in a machine and in the word machine that it tracks. -/
inductive CyclesTrack (m : Machine) (w : WordMachine) :
    Report Failure Pace → Except Failure (WordMachine × Pace) → Prop
  /-- Both fail. -/
  | failed {machine : Machine} {failure : Failure} {events : Array Event} :
      CyclesTrack m w ⟨machine, .error failure, events⟩ (.error failure)
  /-- Both execute the same instruction. -/
  | executed {i : Instruction} {machine : Machine} {pace : Pace} {events : Array Event}
      {next : WordCore} (fetched : m.fetch = .ok i)
      (executed : m.toCore.execute i = .ok machine.toCore)
      (wraps : Core.Wraps i (.ok machine.toCore) (.ok next)) :
      CyclesTrack m w ⟨machine, .ok pace, events⟩ (.ok ({ w with toWordCore := next }, pace))

theorem Tracks.wraps (h : m.Tracks w) {i : Instruction} (hfetch : m.fetch = .ok i) :
    Core.Wraps i (m.toCore.execute i) (w.execute i) := by
  have horderly := h.orderly.core
  have hwords := h.words
  have hliteral : ∀ n, i = .loadImmediate n → inInt32 n := by
    rintro n rfl
    exact h.literals _ n (horderly.layout.fetch hfetch)
  rw [h.core] at horderly hwords ⊢
  exact Core.wraps_execute horderly hwords i hliteral

theorem Tracks.cycle (h : m.Tracks w) : CyclesTrack m w m.cycle w.cycle := by
  have hcycle := m.cycleOutcome
  generalize m.cycle = report at hcycle
  cases hcycle with
  | unfetched hfetch =>
    rw [WordMachine.cycle_of_fetch_error (h.core ▸ hfetch)]
    exact .failed
  | @untraced i _ _ htrace =>
    obtain ⟨line?, hline⟩ := h.exists_traceLine? i
    rw [hline] at htrace
    cases htrace
  | @refused i _ _ hfetch _ hexecute =>
    have hwraps := h.wraps hfetch
    rw [WordMachine.cycle_of_fetch (h.core ▸ hfetch)]
    rw [hexecute] at hwraps
    generalize w.execute i = result at hwraps
    cases hwraps
    exact .failed
  | @executed i _ _ hfetch _ hexecute =>
    have hwraps := h.wraps hfetch
    rw [WordMachine.cycle_of_fetch (h.core ▸ hfetch)]
    rw [hexecute] at hwraps
    generalize w.execute i = result at hwraps
    cases result with
    | error failure => cases hwraps
    | ok next => exact .executed hfetch hexecute hwraps

/-- A step of a machine that has not come to its end is answered as in words and sets the overflow
flag as in words, and the machine is still tracked if it does not overflow. -/
theorem Tracks.step_of_running (h : m.Tracks w) (hm : m.state.isTerminal = false) :
    m.step.answer = w.step.2 ∧
    m.step.machine.registers.overflow = w.step.1.registers.overflow ∧
    ∀ newer, Leads m.toCore newer m.step.machine.toCore → Core.InBounds newer →
      m.step.machine.Tracks w.step.1 := by
  have hw : w.state.isTerminal = false := h.state ▸ hm
  have horderly := h.orderly.step
  have hcycle := h.cycle
  have hcore := @toCore_cycle_of_error m
  have hfault : m.cycle.machine.fault = m.fault := by rw [frame_cycle]
  obtain ⟨hbatch, hprogram, -⟩ := m.settings_cycle
  rw [step_eq_settle hm] at horderly ⊢
  rw [WordMachine.step, hw, if_neg Bool.false_ne_true]
  generalize m.cycle = report, w.cycle = result at *
  have hliterals : ∀ pc n, IsLine report.machine.program pc (.loadImmediate n) → inInt32 n :=
    hprogram ▸ h.literals
  have hbatch := hbatch.trans h.batchSize
  have hfault := hfault.trans h.fault
  cases hcycle with
  | @failed machine failure events =>
    have hsame : machine.toCore = m.toCore := hcore rfl
    have hinWords := hsame.trans h.core
    have hwords : machine.toCore.HoldsWords := hsame ▸ h.words
    have hoverflow : machine.registers.overflow = w.registers.overflow :=
      congrArg (fun c : Core => c.registers.overflow) hinWords
    cases failure with
    | fault fault =>
      exact ⟨rfl, hoverflow, fun _ _ _ =>
        ⟨⟨hinWords, rfl, rfl⟩, horderly, hwords, hliterals, hbatch⟩⟩
    | overlong error =>
      exact ⟨rfl, hoverflow, fun _ _ _ =>
        ⟨⟨hinWords, rfl, hfault⟩, horderly, hwords, hliterals, hbatch⟩⟩
  | @executed i machine pace events next hfetch hexecute hwraps =>
    have hoverflow := hwraps.overflow_eq
    have hinBounds : ∀ newer, Leads m.toCore newer machine.toCore → Core.InBounds newer →
        machine.toCore = next.integers ∧ machine.toCore.HoldsWords := by
      intro newer hnewer hclean
      have hdeed : Leads m.toCore [⟨m.toCore, i, machine.toCore, hfetch, hexecute⟩]
          machine.toCore := .next .start
      rw [← hnewer.unique hdeed] at hclean
      exact hwraps.eq_integers fun hi hoverflow =>
        hclean _ (List.mem_singleton.2 rfl) ⟨hi, hoverflow⟩
    cases pace
    all_goals
      refine ⟨rfl, hoverflow, fun newer hnewer hclean => ?_⟩
      obtain ⟨hinWords, hwords⟩ := hinBounds newer hnewer hclean
      exact ⟨⟨hinWords, rfl, hfault⟩, horderly, hwords, hliterals, hbatch⟩

/-- **A step is answered as in words and sets the overflow flag as in words**, and the machine is
still tracked if it does not overflow. -/
theorem Tracks.step (h : m.Tracks w) :
    m.step.answer = w.step.2 ∧
    m.step.machine.registers.overflow = w.step.1.registers.overflow ∧
    ∀ newer, Leads m.toCore newer m.step.machine.toCore → Core.InBounds newer →
      m.step.machine.Tracks w.step.1 := by
  cases hm : m.state.isTerminal with
  | false => exact h.step_of_running hm
  | true =>
    have hw : w.state.isTerminal = true := h.state ▸ hm
    have hoverflow : m.registers.overflow = w.registers.overflow :=
      congrArg (fun c : Core => c.registers.overflow) h.core
    rw [machine_step_of_isTerminal hm, Machine.step, hm, WordMachine.step, hw]
    exact ⟨congrArg Except.ok h.state, hoverflow, fun _ _ _ => h⟩

/-- Steps in a row are answered as in words while none of them overflows. -/
theorem Tracks.stepped (h : m.Tracks w) {n : Nat} {newer : List Deed}
    (hleads : Leads m.toCore newer (m.stepped n).toCore) (hbounds : Core.InBounds newer) :
    (m.stepped n).Tracks (w.stepped n) ∧
      ∀ k < n, (m.stepped k).step.answer = (w.stepped k).step.2 := by
  induction n generalizing newer with
  | zero => exact ⟨h, fun k hk => absurd hk (Nat.not_lt_zero k)⟩
  | succ n ih =>
    rw [stepped_succ] at hleads
    obtain ⟨older, holder⟩ := m.exists_leads_after (List.replicate n .step)
    rw [after_replicate_step] at holder
    obtain ⟨last, hlast⟩ := exists_leads_step (m := m.stepped n) ⟨[], .start⟩
    obtain rfl := hleads.unique (holder.append hlast)
    obtain ⟨htracks, hanswers⟩ := ih holder fun deed hdeed =>
      hbounds deed (List.mem_append_right _ hdeed)
    obtain ⟨hanswer, -, hnext⟩ := htracks.step
    rw [stepped_succ, WordMachine.stepped_succ]
    refine ⟨hnext last hlast fun deed hdeed => hbounds deed (List.mem_append_left _ hdeed), ?_⟩
    intro k hk
    rcases Nat.lt_succ_iff_lt_or_eq.1 hk with hlt | rfl
    · exact hanswers k hlt
    · exact hanswer

/-! ### Requests -/

theorem Tracks.stop (h : m.Tracks w) (hready : m.state = .ready) :
    (m.inState .stopped).Tracks { w with state := .stopped } :=
  ⟨⟨h.core, rfl, h.fault⟩, h.orderly.stop hready, h.words, h.literals, h.batchSize⟩

/-- A run may take as many steps as in words. -/
theorem Tracks.demand (h : m.Tracks w) (answers : Option (List Bool)) (asked : Option Int) :
    w.perform (.run answers asked) = w.run (m.demand (.run answers asked)) := by
  cases asked with
  | none =>
    show w.run (_ * w.batchSize) = w.run (_ * m.batchSize)
    rw [h.batchSize]
  | some n => rfl

/-- **A request comes to the same in words** while none of its steps overflows. -/
theorem Tracks.perform (h : m.Tracks w) (request : Execution) {newer : List Deed}
    (hleads : Leads m.toCore newer (m.perform request).machine.toCore)
    (hbounds : Core.InBounds newer) : (m.perform request).machine.Tracks (w.perform request).1 := by
  cases request with
  | step => exact h.step.2.2 newer hleads hbounds
  | run answers asked =>
    rw [h.demand]
    have hperformance := m.performance (.run answers asked)
    generalize (m.perform (.run answers asked)).answer = answer,
      (m.perform (.run answers asked)).machine = machine at hleads hperformance
    have hready : ∀ {n : Machine} {x : WordMachine}, n.step.answer = x.step.2 →
        (n.goesOn ↔ x.step.2 = .ok .ready) := fun heq => by rw [goesOn_iff, heq]
    cases hperformance with
    | @ended n hn hbefore hlast =>
      rw [← stepped_succ] at hleads ⊢
      obtain ⟨htracks, hanswers⟩ := h.stepped hleads hbounds
      have hrun : w.run (m.demand (.run answers asked)) = (w.stepped n).step := by
        refine WordMachine.run_of_last hn (fun k hk => ?_) fun hgoes => ?_
        · exact (hready (hanswers k (Nat.lt_succ_of_lt hk))).1 (hbefore k hk)
        · exact hlast ((hready (hanswers n (Nat.lt_succ_self n))).2 hgoes)
      rw [hrun, ← WordMachine.stepped_succ]
      exact htracks
    | rested hbefore =>
      obtain ⟨htracks, hanswers⟩ := h.stepped hleads hbounds
      rw [WordMachine.run_of_goesOn fun k hk => (hready (hanswers k hk)).1 (hbefore k hk)]
      exact htracks.stop (state_stepped_of_goesOn (m.demand_pos _) hbefore)

theorem Tracks.after (h : m.Tracks w) {requests : List Execution} {newer : List Deed}
    (hleads : Leads m.toCore newer (m.after requests).toCore) (hbounds : Core.InBounds newer) :
    (m.after requests).Tracks (w.after requests) := by
  induction requests generalizing m w newer with
  | nil => exact h
  | cons request requests ih =>
    obtain ⟨first, hfirst⟩ := m.exists_leads_after [request]
    change Leads m.toCore first (m.perform request).machine.toCore at hfirst
    obtain ⟨later, hlater⟩ := (m.perform request).machine.exists_leads_after requests
    obtain rfl := hleads.unique (hfirst.append hlater)
    refine ih (h.perform request hfirst fun deed hdeed => ?_) hlater fun deed hdeed => ?_
    · exact hbounds deed (List.mem_append_right _ hdeed)
    · exact hbounds deed (List.mem_append_left _ hdeed)

/-! ### Loaded programs -/

/-- A machine that has just been given a program tracks the word machine that has been given it. -/
theorem tracks_load (hm : m.Fitted) {program : List Word} (h : (m.load program).answer = .ok ())
    (hshort : program.length ≤ 128)
    (hliterals : ∀ pc n, IsLine program pc (.loadImmediate n) → inInt32 n) :
    let loaded := (m.load program).machine
    loaded.Tracks (.start loaded.memory loaded.symbols loaded.batchSize) := by
  intro loaded
  have hlayout : loaded.Layout program m.memory.size := layout_load hm h
  have horderly : loaded.Orderly := orderly_load hm h
  obtain ⟨memory, -, hmachine⟩ := of_load h
  have hloaded : loaded = { m with memory, program }.rewind := hmachine
  have hregisters : loaded.registers = .initial := by rw [hloaded]; rfl
  have hfault : loaded.fault = none := by rw [hloaded]; rfl
  have hstate : loaded.state = .ready := by rw [hloaded]; rfl
  have hprogram : loaded.program = program := by rw [hloaded]; rfl
  have hnext : loaded.symbols.next = loaded.symbols.dataStart := by rw [hloaded]; rfl
  refine ⟨⟨?_, hstate, hfault⟩, horderly, ?_, hprogram ▸ hliterals, rfl⟩
  · show (⟨loaded.registers, loaded.memory, loaded.symbols⟩ : Core) = _
    rw [hregisters]
    rfl
  · intro address word hdata hread
    rcases hlayout.cells address word hread with rfl | ⟨hlo, hhi, -⟩
    · -- the program ends where the data cells begin
      rw [Memory.dataStart] at hdata
      have hbehind : program[address.toNat]? = none := List.getElem?_eq_none (by omega)
      rw [loadedWord, hbehind]
      exact Or.inl rfl
    · rw [hnext, hlayout.dataStart] at hhi
      exact absurd hhi (Int.not_lt.2 hlo)

/-- **Until the first overflow a machine is one with words of 32 bits.**  The program has at most
128 lines, and the literals in it are in the signed 32-bit range.  Beside the machine there is one
with words, which begins with the same memory, and both are stepped and run alike.  As long as no
addition or subtraction has set the overflow flag, the accumulator, the data register and every
integer in a data cell are in range, and the machines are alike: registers, memory, symbols, state
and fault.  Both answer the next step alike, and it sets the overflow flag alike in both, whether or
not it overflows. -/
theorem agrees_with_words_until_overflow (hm : Reachable m) {program : List Word}
    (hload : (m.load program).answer = .ok ()) (hshort : program.length ≤ 128)
    (hliterals : ∀ pc n, IsLine program pc (.loadImmediate n) →
      -2147483648 ≤ n ∧ n ≤ 2147483647)
    (requests : List Execution) (k : Nat) :
    let loaded := (m.load program).machine
    let words := WordMachine.start loaded.memory loaded.symbols loaded.batchSize
    let now := (loaded.after requests).stepped k
    let other := (words.after requests).stepped k
    ∃ history : List Deed,
      (Leads loaded.toCore history now.toCore ∧
        ∀ older, Leads loaded.toCore older now.toCore → older = history) ∧
      (Core.InBounds history →
        ((-2147483648 ≤ now.registers.accumulator ∧ now.registers.accumulator ≤ 2147483647) ∧
          (-2147483648 ≤ now.registers.data ∧ now.registers.data ≤ 2147483647) ∧
          ∀ address word, 128 ≤ address → now.memory.read address = .ok word → word = .empty ∨
            ∃ n, (-2147483648 ≤ n ∧ n ≤ 2147483647) ∧ word = .text (decimal n)) ∧
        now.AgreesInWords other ∧
        now.step.answer = other.step.2 ∧
        now.step.machine.registers.overflow = other.step.1.registers.overflow) := by
  intro loaded words now other
  have hloaded : loaded.Tracks words :=
    tracks_load hm.fitted hload hshort fun pc n hline => inInt32_iff.2 (hliterals pc n hline)
  obtain ⟨first, hfirst⟩ := loaded.exists_leads_after requests
  obtain ⟨later, hlater⟩ := (loaded.after requests).exists_leads_after (List.replicate k .step)
  rw [after_replicate_step] at hlater
  have hleads : Leads loaded.toCore (later ++ first) now.toCore := hfirst.append hlater
  refine ⟨later ++ first, ⟨hleads, fun older holder => hleads.unique holder⟩, fun hbounds => ?_⟩
  have hafter : (loaded.after requests).Tracks (words.after requests) :=
    hloaded.after hfirst fun deed hdeed => hbounds deed (List.mem_append_right _ hdeed)
  have hnow : now.Tracks other :=
    (hafter.stepped hlater fun deed hdeed => hbounds deed (List.mem_append_left _ hdeed)).1
  obtain ⟨hanswer, hoverflow, -⟩ := hnow.step
  have hregisters : now.registers = other.registers.integers :=
    congrArg (fun c : Core => c.registers) hnow.core
  refine ⟨⟨?_, ?_, fun address word hdata hread => ?_⟩, hnow.toAgreesInWords, hanswer, hoverflow⟩
  · rw [hregisters]
    exact inInt32_iff.1 (inInt32_toInt _)
  · rw [hregisters]
    exact inInt32_iff.1 (inInt32_toInt _)
  · rcases hnow.words address word hdata hread with hempty | ⟨n, hn, hword⟩
    · exact Or.inl hempty
    · exact Or.inr ⟨n, inInt32_iff.1 hn, hword⟩

/-- A program that adds the least 32-bit integer to itself. -/
def doubling : List Word :=
  [.text "LDI -2147483648", .text "XCH", .text "LDI -2147483648", .text "ADD"]

/-- The literals of the program. -/
theorem eq_of_isLine_doubling {pc n : Int} (h : IsLine doubling pc (.loadImmediate n)) :
    n = -2147483648 := by
  obtain ⟨hlo, hhi, hdecode⟩ := h
  have hline : ∀ i : Instruction, i.WellFormed → loadedWord doubling pc = .text i.text →
      i = .loadImmediate n := by
    intro i hi hword
    rw [hword, Instruction.decode_text hi] at hdecode
    exact Except.ok.inj hdecode
  have hleast := @Instruction.wellFormed_loadImmediate (-2147483648) (by decide)
  have hlength : doubling.length = 4 := rfl
  obtain rfl | rfl | rfl | rfl : pc = 0 ∨ pc = 1 ∨ pc = 2 ∨ pc = 3 := by omega
  · exact (Instruction.loadImmediate.inj (hline _ hleast (by decide +kernel))).symm
  · cases hline .exchange (by rintro operand ⟨⟩) (by decide +kernel)
  · exact (Instruction.loadImmediate.inj (hline _ hleast (by decide +kernel))).symm
  · cases hline .add (by rintro operand ⟨⟩) (by decide +kernel)

theorem agrees_with_words_until_overflow_doubling :
    let m := blank 2 Nat.two_pos 128
    let loaded := (m.load doubling).machine
    let words := WordMachine.start loaded.memory loaded.symbols loaded.batchSize
    (Reachable m ∧ (m.load doubling).answer = .ok () ∧ doubling.length ≤ 128) ∧
      (∀ pc n, IsLine doubling pc (.loadImmediate n) → -2147483648 ≤ n ∧ n ≤ 2147483647) ∧
      (loaded.stepped 3).AgreesInWords (words.stepped 3) ∧
      ((loaded.stepped 3).step.machine.registers.overflow = true ∧
        (loaded.stepped 3).step.machine.registers.zero = false) ∧
      (words.stepped 3).step.1.registers.overflow = true ∧
        (words.stepped 3).step.1.registers.zero = true := by
  intro m loaded words
  have hm : Reachable m := .new (show Machine.new 2 128 = .ok m from rfl)
  have hload : (m.load doubling).answer = .ok () := answer_load (by decide +kernel)
  have hshort : doubling.length ≤ 128 := by decide
  have hliterals : ∀ pc n, IsLine doubling pc (.loadImmediate n) →
      -2147483648 ≤ n ∧ n ≤ 2147483647 := by
    intro pc n hline
    rw [eq_of_isLine_doubling hline]
    decide
  obtain ⟨history, ⟨-, hunique⟩, hagrees⟩ :=
    agrees_with_words_until_overflow hm hload hshort hliterals [] 3
  have hloaded : (m.load doubling).machine = loaded := rfl
  have hwords : .start loaded.memory loaded.symbols loaded.batchSize = words := rfl
  simp only [after, WordMachine.after, hloaded, hwords] at hunique hagrees
  have hgoes : ∀ k < 3, (loaded.stepped k).goesOn := by decide +kernel
  have hleast := @Instruction.wellFormed_loadImmediate (-2147483648) (by decide)
  have hfetch0 : (loaded.stepped 0).fetch = .ok (.loadImmediate (-2147483648)) :=
    Core.fetch_of_text hleast (Memory.read_eq_cells.2 (by decide +kernel))
  have hfetch1 : (loaded.stepped 1).fetch = .ok .exchange :=
    Core.fetch_of_text (by rintro operand ⟨⟩) (Memory.read_eq_cells.2 (by decide +kernel))
  have hfetch2 : (loaded.stepped 2).fetch = .ok (.loadImmediate (-2147483648)) :=
    Core.fetch_of_text hleast (Memory.read_eq_cells.2 (by decide +kernel))
  have hexact : (loaded.stepped 3).step.machine.registers.overflow = true ∧
      (loaded.stepped 3).step.machine.registers.zero = false := by decide +kernel
  have hwrapped : (words.stepped 3).step.1.registers.zero = true := by decide +kernel
  -- the history of the three steps before the addition
  obtain ⟨first, -, hfirst, -, hleads⟩ :=
    leads_stepped_succ (n := 0) .start (hgoes 0 (by decide)) hfetch0
  obtain ⟨second, -, hsecond, -, hleads⟩ := leads_stepped_succ hleads (hgoes 1 (by decide)) hfetch1
  obtain ⟨third, -, hthird, -, hleads⟩ := leads_stepped_succ hleads (hgoes 2 (by decide)) hfetch2
  obtain rfl := hunique _ hleads
  have hbounds : Core.InBounds [third, second, first] := by
    rintro deed hdeed ⟨harithmetic, -⟩
    simp only [List.mem_cons, List.not_mem_nil, or_false] at hdeed
    obtain rfl | rfl | rfl := hdeed
    · simp [hthird] at harithmetic
    · simp [hsecond] at harithmetic
    · simp [hfirst] at harithmetic
  obtain ⟨-, halike, -, hoverflow⟩ := hagrees hbounds
  exact ⟨⟨hm, hload, hshort⟩, hliterals, halike, hexact, hoverflow.symm.trans hexact.1, hwrapped⟩

end Machine

end Accumulator
