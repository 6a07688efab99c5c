import Accumulator.Proofs.Reachable

/-!
# Machines with words of 32 bits

The accumulator and the data register of a `WordMachine` are words of 32 bits, where those of a
machine are integers of any size.  Sums and differences wrap around.  The zero flag is that of the
wrapped result.  The overflow flag is judged by signs: a sum overflows if its terms have one sign
and it has the other, and a difference if its terms have two signs and it has not that of the first.

Words are read as integers in two's complement.  `sumOverflows_eq` and `differenceOverflows_eq` say
that the judgement by signs is the one on the exact result, and `toInt_add_of_inInt32` and
`toInt_sub_of_inInt32` that a result in range is exact.
-/

namespace Accumulator

/-! ### Words -/

/-- Whether the sum of two words overflows. -/
def sumOverflows (a b : BitVec 32) : Bool := a.msb == b.msb && (a + b).msb != a.msb

/-- Whether the difference of two words overflows. -/
def differenceOverflows (a b : BitVec 32) : Bool := a.msb != b.msb && (a - b).msb != a.msb

section Words

variable {a b : BitVec 32}

theorem inInt32_toInt (a : BitVec 32) : inInt32 a.toInt := by
  have hlo := BitVec.le_toInt a
  have hhi := @BitVec.toInt_lt 32 a
  exact inInt32_iff.2 (by omega)

/-- An integer in range is that of a word. -/
theorem toInt_ofInt_of_inInt32 {n : Int} (h : inInt32 n) : (BitVec.ofInt 32 n).toInt = n := by
  have hbounds := inInt32_iff.1 h
  exact BitVec.toInt_ofInt_eq_self (by decide) (by omega) (by omega)

theorem sumOverflows_eq (a b : BitVec 32) :
    sumOverflows a b = !inInt32 (a.toInt + b.toInt) := by
  have hsigns : sumOverflows a b = a.saddOverflow b := by
    rw [BitVec.saddOverflow_eq]
    rfl
  rw [hsigns, BitVec.saddOverflow, Bool.eq_iff_iff, not_inInt32_iff]
  simp only [Bool.or_eq_true, decide_eq_true_iff]
  omega

theorem differenceOverflows_eq (a b : BitVec 32) :
    differenceOverflows a b = !inInt32 (a.toInt - b.toInt) := by
  have hsigns : differenceOverflows a b = a.ssubOverflow b := by
    rw [BitVec.ssubOverflow_eq, differenceOverflows]
    cases a.msb <;> cases b.msb <;> cases (a - b).msb <;> rfl
  rw [hsigns, BitVec.ssubOverflow, Bool.eq_iff_iff, not_inInt32_iff]
  simp only [Bool.or_eq_true, decide_eq_true_iff]
  omega

theorem toInt_add_of_inInt32 (h : inInt32 (a.toInt + b.toInt)) :
    (a + b).toInt = a.toInt + b.toInt := by
  have hbounds := inInt32_iff.1 h
  rw [BitVec.toInt_add, Int.bmod_eq_emod]
  split <;> omega

theorem toInt_sub_of_inInt32 (h : inInt32 (a.toInt - b.toInt)) :
    (a - b).toInt = a.toInt - b.toInt := by
  have hbounds := inInt32_iff.1 h
  rw [BitVec.toInt_sub, Int.bmod_eq_emod]
  split <;> omega

/-- A word is zero exactly if its integer is. -/
theorem beq_zero_eq (a : BitVec 32) : (a == 0) = (a.toInt == 0) := by
  rw [Bool.eq_iff_iff, beq_iff_eq, beq_iff_eq, ← BitVec.toInt_inj]
  rfl

end Words

/-! ### Cores -/

/-- Registers of which two are words. -/
structure WordRegisters where
  accumulator : BitVec 32 := 0
  data : BitVec 32 := 0
  programCounter : Int := 0
  zero : Bool := false
  overflow : Bool := false
  executed : Int := 0

/-- The integers that the registers stand for. -/
def WordRegisters.integers (r : WordRegisters) : Registers where
  accumulator := r.accumulator.toInt
  data := r.data.toInt
  programCounter := r.programCounter
  zero := r.zero
  overflow := r.overflow
  executed := r.executed

/-- What the instructions of a word machine act on. -/
structure WordCore where
  registers : WordRegisters
  memory : Memory
  symbols : SymbolTable

namespace WordCore

/-- The core with the integers that the registers stand for. -/
def integers (c : WordCore) : Core where
  registers := c.registers.integers
  memory := c.memory
  symbols := c.symbols

/-- The core after one more instruction, with the next one at an address. -/
def goTo (c : WordCore) (target : Int) : WordCore :=
  { c with registers := { c.registers with
      programCounter := target, executed := c.registers.executed + 1 } }

/-- The core after one more instruction, with the next one behind it. -/
def goOn (c : WordCore) : WordCore := c.goTo (c.registers.programCounter + 1)

/-- The core with a word in the accumulator. -/
def setAccumulator (c : WordCore) (a : BitVec 32) : WordCore :=
  { c with registers := { c.registers with accumulator := a } }

/-- The core with an arithmetic result in the accumulator. -/
def setResult (c : WordCore) (a : BitVec 32) (overflow : Bool) : WordCore :=
  { c with registers := { c.registers with accumulator := a, zero := a == 0, overflow } }

/-- The core after an instruction.  An integer wraps around to a word when it is loaded. -/
def execute (c : WordCore) : Instruction → Except Failure WordCore
  | .declare name => do
    let symbols ← c.symbols.declare name
    return { c with symbols }.goOn
  | .load name => do
    let address ← c.symbols.resolve name
    let n ← c.integers.readInteger address
    return (c.setAccumulator (.ofInt 32 n)).goOn
  | .loadImmediate n => .ok (c.setAccumulator (.ofInt 32 n)).goOn
  | .store name => do
    let address ← c.symbols.resolve name
    let memory ← c.memory.write address (.text (Numeral.decimal c.registers.accumulator.toInt))
    return { c with memory }.goOn
  | .exchange =>
    .ok { c with registers := { c.registers with
      accumulator := c.registers.data, data := c.registers.accumulator } }.goOn
  | .jump target => .ok (c.goTo target)
  | .jumpIfZero target => .ok (if c.registers.zero then c.goTo target else c.goOn)
  | .jumpIfOverflow target => .ok (if c.registers.overflow then c.goTo target else c.goOn)
  | .add =>
    let a := c.registers.accumulator
    let b := c.registers.data
    .ok (c.setResult (a + b) (sumOverflows a b)).goOn
  | .subtract =>
    let a := c.registers.accumulator
    let b := c.registers.data
    .ok (c.setResult (a - b) (differenceOverflows a b)).goOn
  | .halt => .ok (c.goTo c.registers.programCounter)

end WordCore

/-! ### Machines -/

/-- A machine whose accumulator and data register are words. -/
structure WordMachine extends WordCore where
  batchSize : Nat
  state : State := .ready
  fault : Option Fault := none

namespace WordMachine

variable {w : WordMachine}

/-- A machine about to execute what is in memory, with its registers at zero. -/
def start (memory : Memory) (symbols : SymbolTable) (batchSize : Nat) : WordMachine :=
  { registers := {}, memory, symbols, batchSize }

/-- One cycle: the machine after it, and whether it goes on. -/
def cycle (w : WordMachine) : Except Failure (WordMachine × Pace) := do
  let instruction ← w.integers.fetch
  let core ← w.execute instruction
  return ({ w with toWordCore := core }, if instruction.halts then .ends else .goesOn)

/-- One instruction executed: the machine after it, and the answer. -/
def step (w : WordMachine) : WordMachine × Except Overlong State :=
  if w.state.isTerminal then (w, .ok w.state)
  else match w.cycle with
    | .ok (next, .goesOn) => ({ next with state := .ready }, .ok .ready)
    | .ok (next, .ends) => ({ next with state := .halted }, .ok .halted)
    | .error (.fault fault) => ({ w with state := .faulted, fault := some fault }, .ok .faulted)
    | .error (.overlong error) => ({ w with state := .running }, .error error)

/-- The machine after so many steps. -/
def stepped (w : WordMachine) : Nat → WordMachine
  | 0 => w
  | n + 1 => w.step.1.stepped n

/-- Up to `limit` steps, of which the first that does not go on is the last.  The machine is stopped
if all of them go on. -/
def run (w : WordMachine) : Nat → WordMachine × Except Overlong State
  | 0 => ({ w with state := .stopped }, .ok .stopped)
  | limit + 1 =>
    match w.step with
    | (next, .ok .ready) => next.run limit
    | ended => ended

/-- What a request comes to: the machine after it, and the answer.  A run goes on for a batch, and
for one more after each yes in front of its answers. -/
def perform (w : WordMachine) : Execution → WordMachine × Except Overlong State
  | .step => w.step
  | .run answers asked =>
    let size := match asked with
      | none => w.batchSize
      | some n => (max n 1).toNat
    w.run ((((answers.getD []).takeWhile id).length + 1) * size)

/-- The machine after requests, one after another. -/
def after (w : WordMachine) : List Execution → WordMachine
  | [] => w
  | request :: requests => (w.perform request).1.after requests

theorem stepped_succ (w : WordMachine) (n : Nat) : w.stepped (n + 1) = (w.stepped n).step.1 := by
  induction n generalizing w with
  | zero => rfl
  | succ n ih => exact ih w.step.1

theorem cycle_of_fetch_error {failure : Failure} (h : w.integers.fetch = .error failure) :
    w.cycle = .error failure := by
  rw [cycle, h]
  rfl

theorem cycle_of_fetch {i : Instruction} (h : w.integers.fetch = .ok i) :
    w.cycle = (w.execute i).map fun core =>
      ({ w with toWordCore := core }, if i.halts then .ends else .goesOn) := by
  rw [cycle, h]
  show (w.execute i >>= _) = _
  cases w.execute i <;> rfl

theorem run_succ_of_ready (h : w.step.2 = .ok .ready) (limit : Nat) :
    w.run (limit + 1) = w.step.1.run limit := by
  rw [run]
  split
  · next next heq => rw [heq]
  · next hne => exact (hne w.step.1 (Prod.ext rfl h)).elim

theorem run_succ_of_ne (h : w.step.2 ≠ .ok .ready) (limit : Nat) :
    w.run (limit + 1) = w.step := by
  rw [run]
  split
  · next next heq =>
    rw [heq] at h
    exact absurd rfl h
  · rfl

/-- A run ends with the first step that does not go on. -/
theorem run_of_last {limit n : Nat} (hn : n < limit)
    (hbefore : ∀ k < n, (w.stepped k).step.2 = .ok .ready)
    (hlast : (w.stepped n).step.2 ≠ .ok .ready) : w.run limit = (w.stepped n).step := by
  induction n generalizing w limit with
  | zero =>
    obtain ⟨limit, rfl⟩ := Nat.exists_eq_add_one.2 hn
    exact run_succ_of_ne hlast limit
  | succ n ih =>
    obtain ⟨limit, rfl⟩ := Nat.exists_eq_add_one.2 (Nat.zero_lt_of_lt hn)
    have hfirst : w.step.2 = .ok .ready := hbefore 0 (Nat.succ_pos n)
    rw [run_succ_of_ready hfirst]
    exact ih (Nat.lt_of_succ_lt_succ hn) (fun k hk => hbefore (k + 1) (Nat.succ_lt_succ hk)) hlast

/-- A run all of whose steps go on is stopped after them. -/
theorem run_of_goesOn {limit : Nat} (h : ∀ k < limit, (w.stepped k).step.2 = .ok .ready) :
    w.run limit = ({ w.stepped limit with state := .stopped }, .ok .stopped) := by
  induction limit generalizing w with
  | zero => rfl
  | succ limit ih =>
    have hfirst : w.step.2 = .ok .ready := h 0 (Nat.succ_pos limit)
    rw [run_succ_of_ready hfirst]
    exact ih fun k hk => h (k + 1) (Nat.succ_lt_succ hk)

end WordMachine

end Accumulator
