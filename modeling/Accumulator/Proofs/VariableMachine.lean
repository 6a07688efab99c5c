import Accumulator.Machine.Cycle
import Accumulator.Proofs.Decoding
import Accumulator.Proofs.Instruction

/-!
# Machines without memory

A `VariableMachine` runs a program on variables.  It keeps the lines of the program and the values
of the variables side by side, where a machine has one memory for both: a declaration gives a
variable the value zero, and no store can reach a line.  Addresses are left only in the program
counter, and memory only in the number of declarations that it has room for.

A variable machine that `StoresOverlong` is about to store an integer too long to be written out,
which a machine cannot put into memory.
-/

namespace Accumulator

/-- A machine that runs lines of text on variables. -/
structure VariableMachine where
  lines : List String
  /-- How many addresses there are. -/
  memorySize : Int
  registers : Registers := .initial
  /-- The values of the variables that were declared. -/
  value? : String → Option Int := fun _ => none
  /-- How many declarations there were. -/
  declared : Int := 0
  state : State := .ready
  fault : Option Fault := none

namespace VariableMachine

variable {v w : VariableMachine}

/-- The instruction at the program counter.  Behind the lines there are no instructions, and behind
the last address there is nothing. -/
def fetch (v : VariableMachine) : Except Failure Instruction :=
  let pc := v.registers.programCounter
  if 0 ≤ pc ∧ pc < v.memorySize then
    match v.lines[pc.toNat]? with
    | some line => Instruction.decode (.text line) (some pc)
    | none => .error (.fault ⟨.notText .empty, some pc⟩)
  else .error (.fault ⟨.outsideMemory pc v.memorySize, none⟩)

/-- The machine after one more instruction, with the next one at an address. -/
def goTo (v : VariableMachine) (target : Int) : VariableMachine :=
  { v with registers := { v.registers with
      programCounter := target, executed := v.registers.executed + 1 } }

/-- The machine after one more instruction, with the next one behind it. -/
def goOn (v : VariableMachine) : VariableMachine := v.goTo (v.registers.programCounter + 1)

/-- The machine with a value for a variable. -/
def assign (v : VariableMachine) (name : String) (n : Int) : VariableMachine :=
  { v with value? := fun other => if other = name then some n else v.value? other }

/-- The machine with an integer in the accumulator. -/
def setAccumulator (v : VariableMachine) (n : Int) : VariableMachine :=
  { v with registers := { v.registers with accumulator := n } }

/-- The machine with an arithmetic result in the accumulator. -/
def setResult (v : VariableMachine) (n : Int) : VariableMachine :=
  { v with registers := { v.registers with
      accumulator := n
      zero := decide (n = 0)
      overflow := decide (n < -2147483648 ∨ 2147483647 < n) } }

/-- The machine after an instruction. -/
def execute (v : VariableMachine) : Instruction → Except Failure VariableMachine
  | .declare name =>
    if v.declared = v.memorySize - Memory.dataStart then
      .error (.fault ⟨.dataMemoryFull name v.declared, none⟩)
    else .ok { v.assign name 0 with declared := v.declared + 1 }.goOn
  | .load name =>
    match v.value? name with
    | none => .error (.fault ⟨.unknownSymbol name, none⟩)
    | some n => .ok (v.setAccumulator n).goOn
  | .loadImmediate n => .ok (v.setAccumulator n).goOn
  | .store name =>
    match v.value? name with
    | none => .error (.fault ⟨.unknownSymbol name, none⟩)
    | some _ => .ok (v.assign name v.registers.accumulator).goOn
  | .exchange =>
    .ok { v with registers := { v.registers with
      accumulator := v.registers.data, data := v.registers.accumulator } }.goOn
  | .jump target => .ok (v.goTo target)
  | .jumpIfZero target => .ok (if v.registers.zero then v.goTo target else v.goOn)
  | .jumpIfOverflow target => .ok (if v.registers.overflow then v.goTo target else v.goOn)
  | .add => .ok (v.setResult (v.registers.accumulator + v.registers.data)).goOn
  | .subtract => .ok (v.setResult (v.registers.accumulator - v.registers.data)).goOn
  | .halt => .ok (v.goTo v.registers.programCounter)

/-- One cycle: the machine after it, and whether it goes on. -/
def cycle (v : VariableMachine) : Except Failure (VariableMachine × Pace) := do
  let instruction ← v.fetch
  let after ← v.execute instruction
  return (after, if instruction.halts then .ends else .goesOn)

/-- One instruction executed: the machine after it, and the answer. -/
def step (v : VariableMachine) : VariableMachine × Except Overlong State :=
  if v.state.isTerminal then (v, .ok v.state)
  else match v.cycle with
    | .ok (w, .goesOn) => ({ w with state := .ready }, .ok .ready)
    | .ok (w, .ends) => ({ w with state := .halted }, .ok .halted)
    | .error (.fault fault) => ({ v with state := .faulted, fault := some fault }, .ok .faulted)
    | .error (.overlong error) => ({ v with state := .running }, .error error)

/-- The machine after so many steps. -/
def stepped (v : VariableMachine) : Nat → VariableMachine
  | 0 => v
  | n + 1 => v.step.1.stepped n

/-- Whether the next step stores an integer that is too long to be written out. -/
structure StoresOverlong (v : VariableMachine) : Prop where
  running : v.state.isTerminal = false
  overlong : Numeral.fits v.registers.accumulator = false
  store : ∃ name n, v.fetch = .ok (.store name) ∧ v.value? name = some n

theorem stepped_add (v : VariableMachine) (k n : Nat) :
    v.stepped (k + n) = (v.stepped k).stepped n := by
  induction k generalizing v with
  | zero => rw [Nat.zero_add]; rfl
  | succ k ih => rw [Nat.add_right_comm]; exact ih v.step.1

theorem stepped_succ (v : VariableMachine) (n : Nat) :
    v.stepped (n + 1) = (v.stepped n).step.1 :=
  v.stepped_add n 1

/-- What is fetched is the instruction in a line. -/
theorem of_fetch {i : Instruction} (h : v.fetch = .ok i) :
    (0 ≤ v.registers.programCounter ∧ v.registers.programCounter < v.memorySize) ∧
      i.WellFormed := by
  unfold fetch at h
  dsimp only at h
  split at h
  · next hwithin =>
    split at h
    · exact ⟨hwithin, Instruction.wellFormed_of_decode h⟩
    · cases h
  · cases h

/-- The text of a well-formed instruction is fetched as that instruction. -/
theorem fetch_of_text {i : Instruction} {k : Nat} (hpc : v.registers.programCounter = k)
    (hk : k < v.memorySize) (hline : v.lines[k]? = some i.text) (hi : i.WellFormed) :
    v.fetch = .ok i := by
  unfold fetch
  dsimp only
  rw [hpc, if_pos ⟨Int.natCast_nonneg k, hk⟩, Int.toNat_natCast, hline]
  exact Instruction.decode_text hi (some (k : Int))

/-- An instruction changes neither the program nor the state of the machine.  It is counted, and
the next one is behind it, in its place or at the address that is its operand. -/
theorem frame_execute {i : Instruction} (h : v.execute i = .ok w) :
    w = { v with registers := w.registers, value? := w.value?, declared := w.declared } ∧
      w.registers.executed = v.registers.executed + 1 ∧
      (w.registers.programCounter = v.registers.programCounter + 1 ∨
        w.registers.programCounter = v.registers.programCounter ∨
        .integer w.registers.programCounter ∈ i.form.operand) := by
  cases i with
  | declare name =>
    rw [execute] at h
    split at h
    · cases h
    · obtain rfl := Except.ok.inj h
      exact ⟨rfl, rfl, Or.inl rfl⟩
  | load name =>
    rw [execute] at h
    split at h
    · cases h
    · obtain rfl := Except.ok.inj h
      exact ⟨rfl, rfl, Or.inl rfl⟩
  | store name =>
    rw [execute] at h
    split at h
    · cases h
    · obtain rfl := Except.ok.inj h
      exact ⟨rfl, rfl, Or.inl rfl⟩
  | loadImmediate n =>
    obtain rfl := Except.ok.inj h
    exact ⟨rfl, rfl, Or.inl rfl⟩
  | exchange =>
    obtain rfl := Except.ok.inj h
    exact ⟨rfl, rfl, Or.inl rfl⟩
  | jump target =>
    obtain rfl := Except.ok.inj h
    exact ⟨rfl, rfl, Or.inr (Or.inr rfl)⟩
  | jumpIfZero target =>
    obtain rfl := Except.ok.inj h
    split
    · exact ⟨rfl, rfl, Or.inr (Or.inr rfl)⟩
    · exact ⟨rfl, rfl, Or.inl rfl⟩
  | jumpIfOverflow target =>
    obtain rfl := Except.ok.inj h
    split
    · exact ⟨rfl, rfl, Or.inr (Or.inr rfl)⟩
    · exact ⟨rfl, rfl, Or.inl rfl⟩
  | add =>
    obtain rfl := Except.ok.inj h
    exact ⟨rfl, rfl, Or.inl rfl⟩
  | subtract =>
    obtain rfl := Except.ok.inj h
    exact ⟨rfl, rfl, Or.inl rfl⟩
  | halt =>
    obtain rfl := Except.ok.inj h
    exact ⟨rfl, rfl, Or.inr (Or.inl rfl)⟩

theorem cycle_of_fetch_error {failure : Failure} (h : v.fetch = .error failure) :
    v.cycle = .error failure := by
  rw [cycle, h]
  rfl

theorem cycle_of_fetch {i : Instruction} (h : v.fetch = .ok i) :
    v.cycle = (v.execute i).map fun w => (w, if i.halts then .ends else .goesOn) := by
  rw [cycle, h]
  show (v.execute i >>= fun w => pure (w, if i.halts then Pace.ends else Pace.goesOn)) = _
  cases v.execute i <;> rfl

/-- A step whose instruction is executed goes on, if the instruction does not end the program. -/
theorem step_of_execute {i : Instruction} (hrunning : v.state.isTerminal = false)
    (hfetch : v.fetch = .ok i) (hexecute : v.execute i = .ok w) (hi : i.halts = false) :
    v.step = ({ w with state := .ready }, .ok .ready) := by
  have hcycle : v.cycle = .ok (w, .goesOn) := by
    rw [cycle_of_fetch hfetch, hexecute, hi]
    rfl
  rw [step, hrunning, hcycle]
  rfl

theorem of_cycle {pace : Pace} (h : v.cycle = .ok (w, pace)) :
    ∃ i, v.fetch = .ok i ∧ v.execute i = .ok w := by
  obtain ⟨i, hfetch, h⟩ := Core.bind_eq_ok h
  obtain ⟨after, hexecute, h⟩ := Core.bind_eq_ok h
  obtain ⟨rfl, -⟩ := Prod.mk.inj (Except.ok.inj h)
  exact ⟨i, hfetch, hexecute⟩

/-- The count of instructions never goes back. -/
theorem executed_le_step (v : VariableMachine) :
    v.registers.executed ≤ v.step.1.registers.executed := by
  unfold step
  split
  · exact Int.le_refl _
  · have hcycle : ∀ w pace, v.cycle = .ok (w, pace) →
        v.registers.executed ≤ w.registers.executed := by
      intro w pace h
      obtain ⟨i, -, hexecute⟩ := of_cycle h
      have hcount := (frame_execute hexecute).2.1
      omega
    split
    · next w h => exact hcycle w .goesOn h
    · next w h => exact hcycle w .ends h
    · exact Int.le_refl _
    · exact Int.le_refl _

theorem executed_le_stepped (v : VariableMachine) (n : Nat) :
    v.registers.executed ≤ (v.stepped n).registers.executed := by
  induction n with
  | zero => exact Int.le_refl _
  | succ n ih =>
    rw [stepped_succ]
    exact Int.le_trans ih (executed_le_step _)

/-- A store of an integer that is too long goes on all the same. -/
theorem StoresOverlong.executed_step (h : v.StoresOverlong) :
    v.step.1.registers.executed = v.registers.executed + 1 := by
  obtain ⟨name, n, hfetch, hvalue⟩ := h.store
  have hexecute : v.execute (.store name) = .ok (v.assign name v.registers.accumulator).goOn := by
    rw [execute, hvalue]
  rw [step_of_execute h.running hfetch hexecute rfl]
  rfl

end VariableMachine

end Accumulator
