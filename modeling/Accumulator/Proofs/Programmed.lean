import Accumulator.Proofs.Layout
import Accumulator.Proofs.Performance
import Accumulator.Proofs.Refusal

/-!
# Machines that are left to their programs

`Programmed` are the machines that are only ever given programs and told to execute them, with no
word, register or symbol changed by hand.  `Machine.Orderly` is what holds of all of them
(`Programmed.orderly`).  Memory is laid out as the program says, and the program is one that fits.
The program counter can be written out, since it is an address of memory, the one behind it or the
operand of a jump.  And a machine has a fault exactly if it has faulted, which is then the fault
that its core meets when it is executed again: a cycle that fails leaves the core as it was.
-/

namespace Accumulator

namespace Core

variable {c d : Core} {program : List Word}

/-- An instruction is counted, and the next one is behind it, in its place or at the address that is
its operand. -/
theorem registers_execute {i : Instruction} (h : c.execute i = .ok d) :
    d.registers.executed = c.registers.executed + 1 ∧
      (d.registers.programCounter = c.registers.programCounter + 1 ∨
        d.registers.programCounter = c.registers.programCounter ∨
        .integer d.registers.programCounter ∈ i.form.operand) := by
  cases i with
  | declare name =>
    obtain ⟨symbols, -, rfl⟩ := of_execute_declare h
    exact ⟨rfl, Or.inl rfl⟩
  | load name =>
    obtain ⟨address, n, -, -, rfl⟩ := of_execute_load h
    exact ⟨rfl, Or.inl rfl⟩
  | store name =>
    obtain ⟨address, memory, -, -, -, rfl⟩ := of_execute_store h
    exact ⟨rfl, Or.inl rfl⟩
  | jump target =>
    obtain rfl := Except.ok.inj h
    exact ⟨rfl, Or.inr (Or.inr rfl)⟩
  | jumpIfZero target =>
    obtain rfl := Except.ok.inj h
    split
    · exact ⟨rfl, Or.inr (Or.inr rfl)⟩
    · exact ⟨rfl, Or.inl rfl⟩
  | jumpIfOverflow target =>
    obtain rfl := Except.ok.inj h
    split
    · exact ⟨rfl, Or.inr (Or.inr rfl)⟩
    · exact ⟨rfl, Or.inl rfl⟩
  | halt =>
    obtain rfl := Except.ok.inj h
    exact ⟨rfl, Or.inr (Or.inl rfl)⟩
  | loadImmediate n =>
    obtain rfl := Except.ok.inj h
    exact ⟨rfl, Or.inl rfl⟩
  | exchange =>
    obtain rfl := Except.ok.inj h
    exact ⟨rfl, Or.inl rfl⟩
  | add =>
    obtain rfl := Except.ok.inj h
    exact ⟨rfl, Or.inl rfl⟩
  | subtract =>
    obtain rfl := Except.ok.inj h
    exact ⟨rfl, Or.inl rfl⟩

/-- A core in which a program has been executed for a while. -/
structure Orderly (program : List Word) (c : Core) : Prop where
  layout : c.Layout program c.memory.size
  fitted : c.Fitted
  counter : Numeral.fits c.registers.programCounter
  latest : c.symbols.Latest

theorem size_execute {i : Instruction} (h : c.execute i = .ok d) :
    d.memory.size = c.memory.size := by
  cases coreEffect h with
  | declared => rfl
  | loaded => rfl
  | stored _ _ hwrite => exact Memory.size_write hwrite
  | internal => rfl

theorem latest_execute (hc : c.symbols.Latest) {i : Instruction} (h : c.execute i = .ok d) :
    d.symbols.Latest := by
  cases coreEffect h with
  | declared hdeclare => exact SymbolTable.latest_of_declare hdeclare
  | loaded => exact hc
  | stored => exact hc
  | internal => exact hc

theorem Orderly.execute (hc : c.Orderly program) {i : Instruction} (hfetch : c.fetch = .ok i)
    (h : c.execute i = .ok d) : d.Orderly program := by
  refine ⟨?_, hc.fitted.execute h, ?_, latest_execute hc.latest h⟩
  · rw [size_execute h]
    exact hc.layout.execute h
  · obtain ⟨word, hread, hdecode⟩ := bind_eq_ok hfetch
    have hwithin := Memory.exists_read_eq_ok_iff.1 ⟨word, hread⟩
    have hmax := hc.fitted.size_le
    rcases (registers_execute h).2 with hnext | hsame | htarget
    · rw [hnext]
      exact fits_of_le_maxIndex (by omega) (by omega)
    · rw [hsame]
      exact hc.counter
    · exact Instruction.wellFormed_of_decode hdecode _ htarget

/-! ### Cells of names -/

/-- **The cell of every name is a data cell of memory.** -/
theorem Orderly.bound_within (hc : c.Orderly program) {name : String} {address : Int}
    (h : c.symbols.address? name = some address) : 128 ≤ address ∧ address < c.memory.size := by
  have hwithin := hc.layout.sound.within name address h
  have hnext := hc.layout.sound.next_le
  have hstart := hc.fitted.dataStart
  have hsize := hc.fitted.memorySize
  rw [Memory.dataStart] at hstart
  omega

theorem Orderly.read_bound (hc : c.Orderly program) {name : String} {address : Int}
    (h : c.symbols.address? name = some address) : ∃ word, c.memory.read address = .ok word := by
  have hwithin := hc.bound_within h
  exact Memory.exists_read_eq_ok_iff.2 ⟨by omega, hwithin.2⟩

/-- A cell that cannot be loaded from holds no integer. -/
theorem Orderly.of_unread (hc : c.Orderly program) {name : String} {address : Int}
    {failure : Failure} (h : c.symbols.address? name = some address)
    (hunread : c.readInteger address = .error failure) :
    ∃ word, c.memory.read address = .ok word ∧ word.integer? = none := by
  obtain ⟨word, hread⟩ := hc.read_bound h
  refine ⟨word, hread, ?_⟩
  cases hword : word.integer? with
  | none => rfl
  | some n =>
    rw [readInteger_of_some hread hword] at hunread
    cases hunread

/-- The cell of a name can be written to. -/
theorem Orderly.write_bound (hc : c.Orderly program) {name : String} {address : Int}
    {word : Word} {failure : Failure} (h : c.symbols.address? name = some address) :
    c.memory.write address word ≠ .error failure := by
  obtain ⟨old, hread⟩ := hc.read_bound h
  obtain ⟨memory, hwrite⟩ := Memory.exists_write_of_read hread word
  rw [hwrite]
  simp

end Core

theorem Memory.clear_of_neg {m : Memory} (h : m.size < 0) : m.clear = m := by
  have hsize := m.size_cells
  have hnone : m.size.toNat = 0 := by omega
  cases m with
  | mk size cells size_cells =>
    dsimp only at hsize hnone
    have hcells : cells = #[] := Array.eq_empty_of_size_eq_zero (hsize.trans hnone)
    simp only [Memory.clear, Memory.blank, hnone, Array.replicate_zero, hcells]

namespace Machine

variable {m : Machine}

/-- What holds of a machine that is left to its programs. -/
structure Orderly (m : Machine) : Prop where
  core : m.toCore.Orderly m.program
  room : 0 ≤ m.memory.size → m.program.length ≤ m.memory.size
  faulted : m.state = .faulted →
    ∃ fault, m.fault = some fault ∧ m.attempt = .error (.fault fault)
  unfaulted : m.state ≠ .faulted → m.fault = none

theorem Orderly.faulted_iff (hm : m.Orderly) :
    m.state = .faulted ↔ ∃ fault, m.fault = some fault := by
  constructor
  · intro h
    obtain ⟨fault, hfault, -⟩ := hm.faulted h
    exact ⟨fault, hfault⟩
  · rintro ⟨fault, hfault⟩
    by_cases h : m.state = .faulted
    · exact h
    · rw [hm.unfaulted h] at hfault
      cases hfault

/-! ### Programs loaded -/

/-- A program that is accepted is in fresh memory, and the machine stands at its beginning. -/
theorem of_load {program : List Word} (h : (m.load program).answer = .ok ()) :
    ∃ memory, (Memory.blank m.memory.size).load program = .ok memory ∧
      (m.load program).machine = { m with memory, program }.rewind := by
  unfold load at h ⊢
  split at h
  · cases h
  · next memory hmemory => exact ⟨memory, hmemory, rfl⟩

theorem load_of_error {program : List Word} {failure : Failure}
    (h : (m.load program).answer = .error failure) : (m.load program).machine = m := by
  unfold load at h ⊢
  split at h
  · rfl
  · cases h

theorem length_le_of_load {memory loaded : Memory} {program : List Word}
    (h : memory.load program = .ok loaded) : program.length ≤ memory.size := by
  unfold Memory.load at h
  split at h
  · next hfits => exact hfits
  · cases h

theorem orderly_load (hm : m.Fitted) {program : List Word}
    (h : (m.load program).answer = .ok ()) : (m.load program).machine.Orderly := by
  have hlayout := layout_load hm h
  have hfitted := fitted_load hm program
  obtain ⟨memory, hload, hmachine⟩ := of_load h
  have hsize := Memory.size_load hload
  change memory.size = m.memory.size at hsize
  rw [hmachine] at hlayout hfitted ⊢
  have hzero : Numeral.fits 0 := fits_of_le_maxIndex (by decide) (by decide)
  refine ⟨⟨?_, hfitted, hzero, Or.inl ⟨rfl, rfl⟩⟩, fun _ => ?_, fun h => ?_, fun _ => rfl⟩
  · rw [← hsize] at hlayout
    exact hlayout
  · have hlength := length_le_of_load hload
    change program.length ≤ m.memory.size at hlength
    rw [← hsize] at hlength
    exact hlength
  · cases h

/-- Resetting a machine loads its program again. -/
theorem reset_eq_load (h : (m.load m.program).answer = .ok ()) :
    m.reset.machine = (m.load m.program).machine := by
  obtain ⟨memory, hload, hmachine⟩ := of_load h
  have hclear : m.memory.clear.load m.program = .ok memory := hload
  rw [hmachine, reset, hclear]

/-- A program that fits is accepted. -/
theorem answer_load {program : List Word} (h : program.length ≤ m.memory.size) :
    (m.load program).answer = .ok () := by
  have hload : ∃ memory, (Memory.blank m.memory.size).load program = .ok memory := ⟨_, dif_pos h⟩
  obtain ⟨memory, hmemory⟩ := hload
  rw [load, hmemory]

theorem answer_reset (h : m.program.length ≤ m.memory.size) : m.reset.answer = .ok () := by
  obtain ⟨memory, hload, -⟩ := of_load (answer_load h)
  have hclear : m.memory.clear.load m.program = .ok memory := hload
  rw [reset, hclear]

/-- A reset is rejected only by a memory that has no room even for the empty program, and then
nothing is changed. -/
theorem Orderly.reset_cases (hm : m.Orderly) :
    (0 ≤ m.memory.size ∧ m.reset.answer = .ok ()) ∨
      (m.memory.size < 0 ∧ (∃ failure, m.reset.answer = .error failure) ∧
        m.reset.machine = m) := by
  by_cases hsize : m.memory.size < 0
  · have hclear := Memory.clear_of_neg hsize
    have hload : ∃ failure, m.memory.clear.load m.program = .error failure := by
      rw [hclear]
      exact ⟨_, dif_neg (by omega)⟩
    obtain ⟨failure, hload⟩ := hload
    rw [Machine.reset, hload, hclear]
    exact Or.inr ⟨hsize, ⟨failure, rfl⟩, rfl⟩
  · have hroom : 0 ≤ m.memory.size := by omega
    exact Or.inl ⟨hroom, answer_reset (hm.room hroom)⟩

theorem Orderly.reset (hm : m.Orderly) : m.reset.machine.Orderly := by
  rcases hm.reset_cases with ⟨hroom, -⟩ | ⟨-, -, hmachine⟩
  · have hload := answer_load (hm.room hroom)
    rw [reset_eq_load hload]
    exact orderly_load hm.core.fitted hload
  · rw [hmachine]
    exact hm

theorem orderly_new {batchSize memorySize room : Int}
    (h : Machine.new batchSize memorySize room = .ok m) : m.Orderly := by
  have hfitted := fitted_new h
  have hblank : ∃ size hpos, m = blank size hpos memorySize := by
    unfold Machine.new at h
    split at h
    · cases h
    · split at h
      · cases h
      · exact ⟨_, _, (Except.ok.inj h).symm⟩
  obtain ⟨size, hpos, rfl⟩ := hblank
  have hzero : Numeral.fits 0 := fits_of_le_maxIndex (by decide) (by decide)
  refine ⟨⟨⟨rfl, SymbolTable.Sound.new _ _, rfl, ?_⟩, hfitted, hzero, Or.inl ⟨rfl, rfl⟩⟩,
    fun h => h, fun h => ?_, fun _ => rfl⟩
  · intro address word hread
    obtain ⟨h0, hlt⟩ := Memory.exists_read_eq_ok_iff.1 ⟨word, hread⟩
    have hempty : (Memory.blank memorySize).read address = .ok .empty := Memory.read_blank h0 hlt
    exact Or.inl (Except.ok.inj (hread.symm.trans hempty))
  · cases h

/-! ### Programs executed -/

theorem size_step (m : Machine) : m.step.machine.memory.size = m.memory.size := by
  rcases m.toCore_step with h | ⟨i, -, h⟩
  · rw [h]
  · exact Core.size_execute h

/-- A machine that a step leaves faulted has met the fault in it, and would meet it again; any other
machine has none. -/
theorem Orderly.fault_step (hm : m.Orderly) :
    (m.step.machine.state = .faulted → ∃ fault, m.step.machine.fault = some fault ∧
      m.step.machine.attempt = .error (.fault fault)) ∧
    (m.step.machine.state ≠ .faulted → m.step.machine.fault = none) := by
  cases hterminal : m.state.isTerminal with
  | true =>
    rw [machine_step_of_isTerminal hterminal]
    exact ⟨hm.faulted, hm.unfaulted⟩
  | false =>
    have hnone : m.cycle.machine.fault = none := by
      rw [frame_cycle]
      refine hm.unfaulted fun h => ?_
      rw [State.isTerminal_iff.2 (Or.inr h)] at hterminal
      cases hterminal
    rcases step_cases hterminal with ⟨-, -, hmachine⟩ | ⟨-, -, hmachine⟩ |
      ⟨fault, hcycle, -, hmachine⟩ | ⟨error, -, -, hmachine⟩
    all_goals rw [hmachine]
    · exact ⟨fun h => (by cases h), fun _ => hnone⟩
    · exact ⟨fun h => (by cases h), fun _ => hnone⟩
    · refine ⟨fun _ => ⟨fault, rfl, ?_⟩, fun h => absurd rfl h⟩
      show m.cycle.machine.attempt = _
      rw [toCore_cycle_of_error hcycle]
      exact attempt_of_cycle_fault hcycle
    · exact ⟨fun h => (by cases h), fun _ => hnone⟩

theorem Orderly.step (hm : m.Orderly) : m.step.machine.Orderly := by
  obtain ⟨-, hprogram, -⟩ := m.settings_step
  obtain ⟨hfaulted, hunfaulted⟩ := hm.fault_step
  refine ⟨?_, ?_, hfaulted, hunfaulted⟩
  · rw [hprogram]
    rcases m.toCore_step with h | ⟨i, hfetch, h⟩
    · rw [h]
      exact hm.core
    · exact hm.core.execute hfetch h
  · rw [hprogram, size_step]
    exact hm.room

theorem Orderly.inState (hm : m.Orderly) {s : State} (hstate : m.state ≠ .faulted)
    (hs : s ≠ .faulted) : (m.inState s).Orderly :=
  ⟨hm.core, hm.room, fun h => absurd h hs, fun _ => hm.unfaulted hstate⟩

theorem Orderly.stop (hm : m.Orderly) (hready : m.state = .ready) :
    (m.inState .stopped).Orderly := hm.inState (by simp [hready]) (by simp)

theorem Orderly.perform (hm : m.Orderly) (request : Execution) :
    (m.perform request).machine.Orderly :=
  perform_induction (fun _ h => h.step) (fun _ h hready => h.stop hready) hm request

theorem Orderly.load (hm : m.Orderly) (program : List Word) :
    (m.load program).machine.Orderly := by
  cases hload : (m.load program).answer with
  | error failure =>
    rw [load_of_error hload]
    exact hm
  | ok => exact orderly_load hm.core.fitted hload

theorem Orderly.setTracing (hm : m.Orderly) (on : Bool) : (m.setTracing on).Orderly :=
  ⟨hm.core, hm.room, hm.faulted, hm.unfaulted⟩

theorem Orderly.clearTrace (hm : m.Orderly) : m.clearTrace.Orderly :=
  ⟨hm.core, hm.room, hm.faulted, hm.unfaulted⟩

/-! ### Programmed machines -/

/-- The machines that come from a new one by programs loaded and executed, with nothing changed by
hand but the trace and whether there is one. -/
inductive Programmed : Machine → Prop
  | new {batchSize memorySize room : Int} {m : Machine}
      (h : Machine.new batchSize memorySize room = .ok m) : Programmed m
  | load {m : Machine} (h : Programmed m) (program : List Word) :
      Programmed (m.load program).machine
  | reset {m : Machine} (h : Programmed m) : Programmed m.reset.machine
  | perform {m : Machine} (h : Programmed m) (request : Execution) :
      Programmed (m.perform request).machine
  | setTracing {m : Machine} (h : Programmed m) (on : Bool) : Programmed (m.setTracing on)
  | clearTrace {m : Machine} (h : Programmed m) : Programmed m.clearTrace

/-- **A machine that is left to its programs is orderly.** -/
theorem Programmed.orderly (h : Programmed m) : m.Orderly := by
  induction h with
  | new h => exact orderly_new h
  | load _ program ih => exact ih.load program
  | reset _ ih => exact ih.reset
  | perform _ request ih => exact ih.perform request
  | setTracing _ on ih => exact ih.setTracing on
  | clearTrace _ ih => exact ih.clearTrace

theorem Programmed.after (h : Programmed m) (requests : List Execution) :
    Programmed (m.after requests) :=
  after_of_forall_perform (fun _ request h => h.perform request) h requests

end Machine

end Accumulator
