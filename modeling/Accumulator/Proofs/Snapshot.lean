import Accumulator.Proofs.BoundedArray
import Accumulator.Proofs.Lockstep
import Accumulator.Proofs.Programmed

/-!
# What a snapshot determines

A snapshot leaves out the cells that nothing has been written to, the allocator of the symbol table
and the fault.  The cells follow from the size of memory (`Memory.eq_of_used_eq`).  The allocator
follows from the symbols, since the address handed out last is always that of a name
(`SymbolTable.next_eq`).  The fault is the one that the core meets when it is executed again.

So machines that are left to their programs, and are not traced, have the same core, state and
fault if they have the same snapshot.  Then they are `Twins`, which differ in their program, trace
and batch size only, and twins are in lockstep: nothing that is asked of them tells them apart
(`snapshot_is_complete`).
-/

namespace Accumulator

/-! ### Memory, states and symbols -/

namespace Memory

/-- **A memory of a size is determined by the cells that have been written to**, since writing them
into a new memory makes it again. -/
theorem eq_of_used_eq {m n : Memory} (hsize : m.size = n.size) (h : m.used = n.used) : m = n := by
  rw [← m.after_writes_used, hsize, h, n.after_writes_used]

end Memory

theorem State.name_injective {s t : State} (h : s.name = t.name) : s = t := by
  revert h
  cases s <;> cases t <;> decide

namespace SymbolTable

variable {t u : SymbolTable}

/-- The address handed out next is behind those of all names. -/
theorem next_le_of_latest (ht : t.Latest) (hu : u.Sound) (hstart : t.dataStart = u.dataStart)
    (h : t.bindings = u.bindings) : t.next ≤ u.next := by
  rcases ht with ⟨-, hnext⟩ | ⟨name, hname⟩
  · rw [hnext, hstart]
    exact hu.dataStart_le
  · have haddress : u.address? name = some (t.next - 1) := by
      rw [address?, ← h]
      exact hname
    have hlt := (hu.within name _ haddress).2
    omega

/-- **The allocator is determined by the symbols.** -/
theorem next_eq (ht : t.Sound) (hu : u.Sound) (htlatest : t.Latest) (hulatest : u.Latest)
    (hstart : t.dataStart = u.dataStart) (h : t.bindings = u.bindings) : t.next = u.next :=
  Int.le_antisymm (next_le_of_latest htlatest hu hstart h)
    (next_le_of_latest hulatest ht hstart.symm h.symm)

end SymbolTable

/-! ### Cores -/

namespace Core

variable {c d : Core} {program other : List Word}

/-- Cores in which programs were executed are determined by what a snapshot shows of them. -/
theorem Orderly.eq_of_shown (hc : c.Orderly program) (hd : d.Orderly other)
    (hsize : c.memory.size = d.memory.size) (hregisters : c.registers = d.registers)
    (hmemory : c.memory.used = d.memory.used) (hsymbols : c.symbols.bindings = d.symbols.bindings) :
    c = d := by
  have hstart : c.symbols.dataStart = d.symbols.dataStart :=
    hc.fitted.dataStart.trans hd.fitted.dataStart.symm
  have hroom : c.symbols.memorySize = d.symbols.memorySize := by
    rw [hc.fitted.memorySize, hd.fitted.memorySize, hsize]
  have hnext := SymbolTable.next_eq hc.layout.sound hd.layout.sound hc.latest hd.latest hstart
    hsymbols
  have htables : c.symbols = d.symbols := by
    cases hcs : c.symbols
    cases hds : d.symbols
    rw [hcs, hds] at hstart hroom hnext hsymbols
    dsimp only at hstart hroom hnext hsymbols
    rw [hstart, hroom, hnext, hsymbols]
  have hmemories := Memory.eq_of_used_eq hsize hmemory
  cases c
  cases d
  cases hregisters
  cases hmemories
  cases htables
  rfl

end Core

namespace Machine

variable {m n : Machine}

/-! ### Twins -/

/-- Machines without a trace that differ in nothing else than their program, their old trace and
their batch size. -/
structure Twins (m n : Machine) : Prop where
  core : m.toCore = n.toCore
  state : m.state = n.state
  fault : m.fault = n.fault
  untraced : m.tracing = false ∧ n.tracing = false

theorem Twins.snapshot (h : m.Twins n) : m.snapshot = n.snapshot := by
  rw [Machine.snapshot, Machine.snapshot, h.core, h.state]

theorem Twins.cycle (h : m.Twins n) :
    m.cycle.answer = n.cycle.answer ∧ m.cycle.machine.Twins n.cycle.machine := by
  have hanswer : m.cycle.answer = n.cycle.answer ∧
      m.cycle.machine.toCore = n.cycle.machine.toCore := by
    rw [Machine.cycle, Machine.cycle, h.core]
    cases n.fetch with
    | error failure => exact ⟨rfl, h.core⟩
    | ok i =>
      dsimp only
      -- with no line to be written, what is left of the cycle is a matter of the core
      rw [traceLine?_of_untraced h.untraced.1, traceLine?_of_untraced h.untraced.2]
      dsimp only
      rw [toCore_record, toCore_record, h.core]
      cases n.toCore.execute i with
      | error failure => exact ⟨rfl, h.core⟩
      | ok core => exact ⟨rfl, rfl⟩
  refine ⟨hanswer.1, hanswer.2, ?_, ?_, ?_⟩
  · rw [m.frame_cycle, n.frame_cycle]
    exact h.state
  · rw [m.frame_cycle, n.frame_cycle]
    exact h.fault
  · exact ⟨m.settings_cycle.2.2.trans h.untraced.1, n.settings_cycle.2.2.trans h.untraced.2⟩

theorem Twins.step (h : m.Twins n) :
    m.step.answer = n.step.answer ∧ m.step.machine.Twins n.step.machine := by
  cases hm : m.state.isTerminal with
  | true =>
    have hn : n.state.isTerminal = true := h.state ▸ hm
    rw [Machine.step, hm, Machine.step, hn]
    exact ⟨congrArg Except.ok h.state, h⟩
  | false =>
    have hn : n.state.isTerminal = false := h.state ▸ hm
    obtain ⟨hanswer, hcycle⟩ := h.cycle
    rw [step_eq_settle hm, step_eq_settle hn]
    unfold settle
    dsimp only
    rw [hanswer]
    cases n.cycle.answer with
    | ok pace => cases pace <;> exact ⟨rfl, hcycle.core, rfl, hcycle.fault, hcycle.untraced⟩
    | error failure =>
      cases failure with
      | fault fault => exact ⟨rfl, hcycle.core, rfl, rfl, hcycle.untraced⟩
      | overlong error => exact ⟨rfl, hcycle.core, rfl, hcycle.fault, hcycle.untraced⟩

/-- **Twins are in lockstep.** -/
theorem lockstep_twins : Lockstep Twins where
  state h := h.state
  answer h := h.step.1
  step h := h.step.2
  inState h _ := ⟨h.core, rfl, h.fault, h.untraced⟩

/-! ### Snapshots -/

/-- Machines that are left to their programs have the same fault if they have the same core and
state. -/
theorem Orderly.fault_eq (hm : m.Orderly) (hn : n.Orderly) (hcore : m.toCore = n.toCore)
    (hstate : m.state = n.state) : m.fault = n.fault := by
  by_cases hfaulted : m.state = .faulted
  -- both faults are the one that the core meets when it is executed again
  · obtain ⟨fault, hfault, hattempt⟩ := hm.faulted hfaulted
    obtain ⟨met, hmet, hattempt'⟩ := hn.faulted (hstate ▸ hfaulted)
    rw [hcore, hattempt'] at hattempt
    obtain rfl := Failure.fault.inj (Except.error.inj hattempt)
    rw [hfault, hmet]
  · rw [hm.unfaulted hfaulted, hn.unfaulted (hstate ▸ hfaulted)]

/-- Machines that are left to their programs and have the same snapshot are twins. -/
theorem Orderly.twins (hm : m.Orderly) (hn : n.Orderly) (hsize : m.memory.size = n.memory.size)
    (huntraced : m.tracing = false ∧ n.tracing = false) (h : m.snapshot = n.snapshot) :
    m.Twins n := by
  have hregisters : m.registers = n.registers := by
    have haccumulator := congrArg Snapshot.accumulator h
    have hdata := congrArg Snapshot.data h
    have hcounter := congrArg Snapshot.programCounter h
    have hzero := congrArg Snapshot.zero h
    have hoverflow := congrArg Snapshot.overflow h
    have hexecuted := congrArg Snapshot.executed h
    dsimp only [Machine.snapshot] at haccumulator hdata hcounter hzero hoverflow hexecuted
    cases hmr : m.registers
    cases hnr : n.registers
    simp only [hmr, hnr] at haccumulator hdata hcounter hzero hoverflow hexecuted
    rw [haccumulator, hdata, hcounter, hzero, hoverflow, hexecuted]
  have hcore : m.toCore = n.toCore := hm.core.eq_of_shown hn.core hsize hregisters
    (congrArg Snapshot.memory h) (congrArg Snapshot.symbols h)
  have hstate : m.state = n.state := State.name_injective (congrArg Snapshot.state h)
  exact ⟨hcore, hstate, hm.fault_eq hn hcore hstate, huntraced⟩

/-- What the symbols say of the allocator. -/
theorem Orderly.next_of_symbols (hm : m.Orderly) :
    (m.snapshot.symbols = .empty → m.symbols.next = 128) ∧
    (m.snapshot.symbols ≠ .empty →
      (∃ name, m.snapshot.symbols.get? name = some (m.symbols.next - 1)) ∧
        ∀ name address, m.snapshot.symbols.get? name = some address →
          address ≤ m.symbols.next - 1) := by
  have hstart := hm.core.fitted.dataStart
  rcases hm.core.latest with ⟨hempty, hnext⟩ | ⟨latest, hlatest⟩
  · exact ⟨fun _ => hnext.trans hstart, fun hne => absurd hempty hne⟩
  · refine ⟨fun hempty => ?_, fun _ => ⟨⟨latest, hlatest⟩, fun name address hbound => ?_⟩⟩
    · rw [SymbolTable.address?, show m.symbols.bindings = _ from hempty] at hlatest
      cases hlatest
    · have hlt := (hm.core.layout.sound.within name address hbound).2
      omega

/-- **A snapshot is a complete state of execution.**  Two machines of the same memory size have been
left to their programs, which need not be the same, and are not traced.  If they have the same
snapshot, they have the same allocator and the same fault, and the answers, the snapshots shown on
the way and those afterwards are the same for all further requests with the same batch sizes and
answers.  The allocator is at the first data cell if there are no symbols, and otherwise behind the
last cell of a symbol. -/
theorem snapshot_is_complete (hm : Programmed m) (hn : Programmed n)
    (hsize : m.memory.size = n.memory.size) (huntraced : m.tracing = false ∧ n.tracing = false)
    (h : m.snapshot = n.snapshot) :
    m.symbols.next = n.symbols.next ∧ m.fault = n.fault ∧
    (∀ requests others, List.Forall₂ (Execution.Corresponds m n) requests others →
      m.observations requests = n.observations others) ∧
    (m.snapshot.symbols = .empty → m.symbols.next = 128) ∧
    (m.snapshot.symbols ≠ .empty →
      (∃ name, m.snapshot.symbols.get? name = some (m.symbols.next - 1)) ∧
        ∀ name address, m.snapshot.symbols.get? name = some address →
          address ≤ m.symbols.next - 1) := by
  have htwins := hm.orderly.twins hn.orderly hsize huntraced h
  have hnext : m.symbols.next = n.symbols.next := by rw [htwins.core]
  refine ⟨hnext, htwins.fault, fun requests others halike => ?_, hm.orderly.next_of_symbols⟩
  exact lockstep_twins.observations (fun _ _ h => h.snapshot) htwins halike

/-- A program that stores in a cell in which it has a line itself. -/
def overwriting (line : String) : List Word :=
  [.text "DEC X", .text "LDI 5", .text "STR X"] ++ List.replicate 125 (.text "") ++ [.text line]

/-- A machine with one cell for data that has executed its first three instructions. -/
def overwritten (batchSize : Nat) (batchSize_pos : 0 < batchSize) (line : String) : Machine :=
  ((blank batchSize batchSize_pos 129).load (overwriting line)).machine.after
    (List.replicate 3 .step)

theorem snapshot_is_complete_overwritten :
    let seven := overwritten 1 Nat.one_pos "7"
    let eight := overwritten 2 Nat.two_pos "8"
    let requests := [.run (some [true]) (some 3), .step]
    (Programmed seven ∧ Programmed eight ∧ seven.memory.size = eight.memory.size ∧
      (seven.tracing = false ∧ eight.tracing = false) ∧ seven.snapshot = eight.snapshot) ∧
    seven.program ≠ eight.program ∧ seven.symbols.next = 129 ∧ eight.symbols.next = 129 ∧
      seven.observations requests = eight.observations requests := by
  intro seven eight requests
  have hfirst : Machine.new 1 129 = .ok (blank 1 Nat.one_pos 129) := rfl
  have hsecond : Machine.new 2 129 = .ok (blank 2 Nat.two_pos 129) := rfl
  have hseven : Programmed seven := (Programmed.load (.new hfirst) _).after _
  have height : Programmed eight := (Programmed.load (.new hsecond) _).after _
  have hsize : seven.memory.size = eight.memory.size := by decide +kernel
  have huntraced : seven.tracing = false ∧ eight.tracing = false := by decide +kernel
  have hsnapshot : seven.snapshot = eight.snapshot := by decide +kernel
  have hprogram : seven.program ≠ eight.program := by decide +kernel
  have hnext : seven.symbols.next = 129 := by decide +kernel
  have hasked : ∀ m n : Machine, m.runSize (some 3) = n.runSize (some 3) := fun _ _ => rfl
  obtain ⟨hsame, -, hobservations, -⟩ :=
    snapshot_is_complete hseven height hsize huntraced hsnapshot
  exact ⟨⟨hseven, height, hsize, huntraced, hsnapshot⟩, hprogram, hnext, hsame ▸ hnext,
    hobservations _ _ (.cons (.run (hasked _ _)) (.cons .step .nil))⟩

end Machine

end Accumulator
