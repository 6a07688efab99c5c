import Accumulator.Machine.Access
import Accumulator.Memory.Lemmas
import Accumulator.Proofs.Instruction
import Accumulator.Proofs.Run

/-!
# The machines that requests lead to

`Reachable` are the machines that come from a new one by any requests: programs loaded and executed,
settings changed, registers, memory and symbols changed by hand.  In all of them the symbol table
hands out addresses of the machine's own memory, and the memory is one whose cells can be numbered
(`Reachable.fitted`).

`after m requests` is the machine after requests to execute instructions, each a step or a run.  A
run is a sequence of steps, so what every step keeps is kept by all of them (`after_induction`).
-/

namespace Accumulator

/-- A request to execute instructions. -/
inductive Execution
  | step
  | run (answers : Option (List Bool)) (asked : Option Int)

/-- The symbol table is one for the data addresses of the memory, and the cells of the memory can be
numbered. -/
structure Core.Fitted (c : Core) : Prop where
  dataStart : c.symbols.dataStart = Memory.dataStart
  memorySize : c.symbols.memorySize = c.memory.size
  size_le : c.memory.size ≤ maxIndex

namespace Core

variable {c d : Core}

theorem Fitted.of_eq (hc : c.Fitted) (hsymbols : d.symbols = c.symbols)
    (hsize : d.memory.size = c.memory.size) : d.Fitted where
  dataStart := by rw [hsymbols, hc.dataStart]
  memorySize := by rw [hsymbols, hsize, hc.memorySize]
  size_le := by rw [hsize]; exact hc.size_le

theorem Fitted.declare (hc : c.Fitted) {name : String} {symbols : SymbolTable}
    (h : c.symbols.declare name = .ok symbols) : Fitted { c with symbols } := by
  obtain ⟨-, rfl⟩ := SymbolTable.declare_eq_ok_iff.1 h
  exact ⟨hc.dataStart, hc.memorySize, hc.size_le⟩

theorem Fitted.execute (hc : c.Fitted) {i : Instruction} (h : c.execute i = .ok d) :
    d.Fitted := by
  cases coreEffect h with
  | declared hdeclare => exact (hc.declare hdeclare).of_eq rfl rfl
  | loaded => exact hc.of_eq rfl rfl
  | stored _ _ hwrite => exact hc.of_eq rfl (Memory.size_write hwrite)
  | internal => exact hc.of_eq rfl rfl

end Core

namespace Machine

variable {m n : Machine}

/-! ### Execution -/

/-- What a request comes to. -/
def perform (m : Machine) : Execution → Report Overlong State
  | .step => m.step
  | .run answers asked => (m.run answers asked).report

/-- The machine after requests, one after another. -/
def after (m : Machine) : List Execution → Machine
  | [] => m
  | request :: requests => (m.perform request).machine.after requests

/-- What is noted in requests, one after another. -/
def journal (m : Machine) : List Execution → Array Event
  | [] => #[]
  | request :: requests =>
    (m.perform request).events ++ (m.perform request).machine.journal requests

/-- A request is a number of steps but for the state at the end, and decodes nothing that they do
not decode. -/
theorem perform_as_steps (m : Machine) (request : Execution) :
    ∃ n s, (m.perform request).machine = (m.stepped n).inState s ∧
      ∀ pc i, .decoded pc i ∈ (m.perform request).events → .decoded pc i ∈ m.noted n := by
  cases request with
  | step =>
    refine ⟨1, m.step.machine.state, rfl, fun pc i h => ?_⟩
    rw [noted, noted, Array.append_empty]
    exact h
  | run answers asked =>
    rw [perform]
    cases hm : m.state.isTerminal with
    | true =>
      rw [report_run_of_isTerminal hm]
      refine ⟨0, m.state, rfl, fun pc i h => ?_⟩
      cases Array.mem_singleton.1 h
    | false =>
      have hfollows := followsSteps_run hm (answers.getD []) asked
      rw [report_run]
      generalize m.runLimit (answers.getD []) asked = limit at hfollows
      refine ⟨_, _, hfollows.machine, fun pc i h => ?_⟩
      rw [← hfollows.noted, ofSteps, Array.mem_filter]
      exact ⟨h, rfl⟩

section Induction

variable {P : Machine → Prop} {Q : Int → Instruction → Prop}

/-- What every step keeps is kept by steps in a row, and what holds of the instructions that every
step decodes holds of all they decode. -/
theorem stepped_induction (hstep : ∀ m, P m → P m.step.machine)
    (hfetch : ∀ m i, P m → m.fetch = .ok i → Q m.registers.programCounter i) (hm : P m) (n : Nat) :
    P (m.stepped n) ∧ ∀ pc i, .decoded pc i ∈ m.noted n → Q pc i := by
  induction n generalizing m with
  | zero =>
    exact ⟨hm, fun pc i h => absurd h (Array.not_mem_empty _)⟩
  | succ n ih =>
    obtain ⟨hlast, hnoted⟩ := ih (hstep m hm)
    refine ⟨hlast, fun pc i h => ?_⟩
    rcases Array.mem_append.1 h with h | h
    · cases stepNote h with
      | decoded hdecoded => exact hfetch m i hm hdecoded
    · exact hnoted pc i h

/-- What every step keeps, whatever the state, is kept by all execution. -/
theorem after_induction (hstate : ∀ m s, P m → P (m.inState s))
    (hstep : ∀ m, P m → P m.step.machine)
    (hfetch : ∀ m i, P m → m.fetch = .ok i → Q m.registers.programCounter i) (hm : P m)
    (requests : List Execution) :
    P (m.after requests) ∧ ∀ pc i, .decoded pc i ∈ m.journal requests → Q pc i := by
  induction requests generalizing m with
  | nil =>
    exact ⟨hm, fun pc i h => absurd h (Array.not_mem_empty _)⟩
  | cons request requests ih =>
    -- the steps of the request keep `P`, and so does the state that it leaves behind
    obtain ⟨n, s, hmachine, hnoted⟩ := m.perform_as_steps request
    obtain ⟨hsteps, hdecoded⟩ := stepped_induction hstep hfetch hm n
    have hfirst : P (m.perform request).machine := by
      rw [hmachine]
      exact hstate _ s hsteps
    obtain ⟨hlast, hlater⟩ := ih hfirst
    refine ⟨hlast, fun pc i h => ?_⟩
    rcases Array.mem_append.1 h with h | h
    · exact hdecoded pc i (hnoted pc i h)
    · exact hlater pc i h

end Induction

/-! ### Reachable machines -/

/-- The machines that requests lead to. -/
inductive Reachable : Machine → Prop
  | new {batchSize memorySize room : Int} {m : Machine}
      (h : Machine.new batchSize memorySize room = .ok m) : Reachable m
  | load {m : Machine} (h : Reachable m) (program : List Word) : Reachable (m.load program).machine
  | reset {m : Machine} (h : Reachable m) : Reachable m.reset.machine
  | perform {m : Machine} (h : Reachable m) (request : Execution) :
      Reachable (m.perform request).machine
  | setTracing {m : Machine} (h : Reachable m) (on : Bool) : Reachable (m.setTracing on)
  | clearTrace {m : Machine} (h : Reachable m) : Reachable m.clearTrace
  | write {m n : Machine} (h : Reachable m) {address : Int} {word : Word}
      (written : m.write address word = .ok n) : Reachable n
  | clearMemory {m : Machine} (h : Reachable m) : Reachable m.clearMemory
  | setNumber {m : Machine} (h : Reachable m) (value : Int) (register : NumberRegister) :
      Reachable (m.setNumber value register)
  | setFlag {m : Machine} (h : Reachable m) (value : Bool) (register : FlagRegister) :
      Reachable (m.setFlag value register)
  | declare {m : Machine} (h : Reachable m) (name : String) : Reachable (m.declare name).machine

theorem fitted_new {batchSize memorySize room : Int}
    (h : Machine.new batchSize memorySize room = .ok m) : m.Fitted := by
  unfold Machine.new at h
  split at h
  · cases h
  · split at h
    · cases h
    · next hsize =>
      obtain rfl := Except.ok.inj h
      refine ⟨rfl, rfl, ?_⟩
      unfold Memory.sizeError? at hsize
      split at hsize
      · cases hsize
      · next hindex =>
        have hsome : isIndex memorySize := by simpa using hindex
        exact le_maxIndex_of_isIndex hsome

theorem fitted_step (hm : m.Fitted) : m.step.machine.Fitted := by
  rcases m.toCore_step with h | ⟨i, -, h⟩
  · rw [h]
    exact hm
  · exact hm.execute h

theorem fitted_rewind (hm : m.Fitted) : m.rewind.Fitted :=
  ⟨hm.dataStart, hm.memorySize, hm.size_le⟩

theorem fitted_load (hm : m.Fitted) (program : List Word) : (m.load program).machine.Fitted := by
  unfold load
  split
  · exact hm
  · next hload =>
    have hsize := Memory.size_load hload
    exact fitted_rewind (hm.of_eq rfl hsize)

theorem fitted_reset (hm : m.Fitted) : m.reset.machine.Fitted := by
  unfold reset
  split
  · exact hm.of_eq rfl rfl
  · next hload =>
    have hsize := Memory.size_load hload
    exact fitted_rewind (hm.of_eq rfl hsize)

theorem fitted_after (hm : m.Fitted) (requests : List Execution) : (m.after requests).Fitted :=
  (after_induction (P := fun n => n.Fitted) (Q := fun _ _ => True) (fun _ _ h => h)
    (fun _ h => fitted_step h) (fun _ _ _ _ => trivial) hm requests).1

/-- **In every reachable machine the symbol table is fitted to the memory.** -/
theorem Reachable.fitted (h : Reachable m) : m.Fitted := by
  induction h with
  | new h => exact fitted_new h
  | load _ program ih => exact fitted_load ih program
  | reset _ ih => exact fitted_reset ih
  | perform _ request ih => exact fitted_after ih [request]
  | setTracing _ _ ih => exact ih.of_eq rfl rfl
  | clearTrace _ ih => exact ih.of_eq rfl rfl
  | write _ hwrite ih =>
    obtain ⟨memory, hmemory, hn⟩ := Core.bind_eq_ok hwrite
    obtain rfl := Except.ok.inj hn
    exact ih.of_eq rfl (Memory.size_write hmemory)
  | clearMemory _ ih => exact ih.of_eq rfl rfl
  | setNumber _ _ _ ih => exact ih.of_eq rfl rfl
  | setFlag _ _ _ ih => exact ih.of_eq rfl rfl
  | declare _ name ih =>
    unfold Machine.declare
    split
    · exact ih
    · next hdeclare => exact ih.declare hdeclare

end Machine

end Accumulator
