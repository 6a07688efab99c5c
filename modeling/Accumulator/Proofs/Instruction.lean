import Accumulator.Machine.Cycle
import Accumulator.Proofs.SymbolTable

/-!
# What instructions do to memory and symbols

Only two instructions reach beyond the registers: a declaration changes the symbol table, and a
store writes the decimal text of the accumulator into the cell of a variable.  `CoreEffect` says
what an instruction that was executed made of the core, and `coreEffect` that there is nothing else
it can do.
-/

namespace Accumulator

namespace Core

variable {c d : Core}

/-- What an instruction that is executed makes of a core. -/
inductive CoreEffect (c : Core) : Instruction → Core → Prop
  /-- A name is bound to the next address. -/
  | declared {name : String} {symbols : SymbolTable}
      (declared : c.symbols.declare name = .ok symbols) :
      CoreEffect c (.declare name) { c with symbols }.complete
  /-- The integer in the cell of a variable goes into the accumulator. -/
  | loaded {name : String} {address n : Int} (bound : c.symbols.address? name = some address)
      (read : c.readInteger address = .ok n) :
      CoreEffect c (.load name)
        { c with registers := { c.registers with accumulator := n } }.complete
  /-- The text of the accumulator goes into the cell of a variable. -/
  | stored {name : String} {address : Int} {memory : Memory}
      (bound : c.symbols.address? name = some address)
      (fits : Numeral.fits c.registers.accumulator)
      (written : c.memory.write address (.text (Numeral.decimal c.registers.accumulator)) =
        .ok memory) :
      CoreEffect c (.store name) { c with memory }.complete
  /-- Only registers change. -/
  | internal {i : Instruction} {registers : Registers}
      (executed : c.execute i = .ok { c with registers }) : CoreEffect c i { c with registers }

theorem bind_eq_ok {ε α β : Type} {x : Except ε α} {f : α → Except ε β} {b : β}
    (h : (x >>= f) = .ok b) : ∃ a, x = .ok a ∧ f a = .ok b := by
  cases x with
  | error e => cases h
  | ok a => exact ⟨a, rfl, h⟩

/-- What a store writes out is the decimal text of an integer that is not too long. -/
theorem write_mapError_eq_ok_iff {n : Int} {s : String} :
    (Numeral.write n).mapError Failure.overlong = .ok s ↔
      Numeral.fits n ∧ s = Numeral.decimal n := by
  unfold Numeral.write
  split
  · next hfits =>
    constructor
    · intro h
      exact ⟨hfits, (Except.ok.inj h).symm⟩
    · rintro ⟨-, rfl⟩
      rfl
  · next hfits =>
    constructor
    · intro h
      cases h
    · rintro ⟨h, -⟩
      exact absurd h hfits

theorem jump_or_complete (c : Core) (flag : Bool) (target : Int) :
    (if flag then c.jump target else c.complete) = { c with
      registers := if flag then c.registers.count.goTo target else c.registers.count.goOn } := by
  cases flag <;> rfl

theorem execute_store {name : String} {address : Int} {memory : Memory}
    (hbound : c.symbols.address? name = some address)
    (hfits : Numeral.fits c.registers.accumulator)
    (hwrite : c.memory.write address (.text (Numeral.decimal c.registers.accumulator)) =
      .ok memory) :
    c.execute (.store name) = .ok { c with memory }.complete := by
  rw [execute, SymbolTable.resolve_eq_ok_iff.2 hbound, write_mapError_eq_ok_iff.2 ⟨hfits, rfl⟩]
  show (c.memory.write address _ >>= _) = _
  rw [hwrite]
  rfl

/-- An accumulator that is too long cannot be stored. -/
theorem execute_store_of_not_fits {name : String} {address : Int}
    (hbound : c.symbols.address? name = some address)
    (hfits : Numeral.fits c.registers.accumulator = false) :
    c.execute (.store name) = .error (.overlong .writing) := by
  rw [execute, SymbolTable.resolve_eq_ok_iff.2 hbound, Numeral.write, hfits]
  rfl

/-- What it takes to execute a declaration, and what comes of it. -/
theorem of_execute_declare {name : String} (h : c.execute (.declare name) = .ok d) :
    ∃ symbols, c.symbols.declare name = .ok symbols ∧ d = { c with symbols }.complete := by
  obtain ⟨symbols, hdeclare, hd⟩ := bind_eq_ok h
  exact ⟨symbols, hdeclare, (Except.ok.inj hd).symm⟩

/-- What it takes to execute a load, and what comes of it. -/
theorem of_execute_load {name : String} (h : c.execute (.load name) = .ok d) :
    ∃ address n, c.symbols.address? name = some address ∧ c.readInteger address = .ok n ∧
      d = { c with registers := { c.registers with accumulator := n } }.complete := by
  obtain ⟨address, hresolve, h⟩ := bind_eq_ok h
  obtain ⟨n, hread, hd⟩ := bind_eq_ok h
  exact ⟨address, n, SymbolTable.resolve_eq_ok_iff.1 hresolve, hread, (Except.ok.inj hd).symm⟩

/-- What it takes to execute a store, and what comes of it. -/
theorem of_execute_store {name : String} (h : c.execute (.store name) = .ok d) :
    ∃ address memory, c.symbols.address? name = some address ∧
      Numeral.fits c.registers.accumulator ∧
      c.memory.write address (.text (Numeral.decimal c.registers.accumulator)) = .ok memory ∧
      d = { c with memory }.complete := by
  obtain ⟨address, hresolve, h⟩ := bind_eq_ok h
  obtain ⟨text, htext, h⟩ := bind_eq_ok h
  obtain ⟨memory, hwrite, hd⟩ := bind_eq_ok h
  obtain ⟨hfits, rfl⟩ := write_mapError_eq_ok_iff.1 htext
  exact ⟨address, memory, SymbolTable.resolve_eq_ok_iff.1 hresolve, hfits, hwrite,
    (Except.ok.inj hd).symm⟩

/-- Every instruction that is executed has one of the effects. -/
theorem coreEffect {i : Instruction} (h : c.execute i = .ok d) : CoreEffect c i d := by
  cases i with
  | declare name =>
    obtain ⟨symbols, hdeclare, rfl⟩ := of_execute_declare h
    exact .declared hdeclare
  | load name =>
    obtain ⟨address, n, hbound, hread, rfl⟩ := of_execute_load h
    exact .loaded hbound hread
  | store name =>
    obtain ⟨address, memory, hbound, hfits, hwrite, rfl⟩ := of_execute_store h
    exact .stored hbound hfits hwrite
  | loadImmediate n =>
    obtain rfl := Except.ok.inj h
    exact .internal rfl
  | exchange =>
    obtain rfl := Except.ok.inj h
    exact .internal rfl
  | jump target =>
    obtain rfl := Except.ok.inj h
    exact .internal rfl
  | jumpIfZero target =>
    obtain rfl := Except.ok.inj h
    rw [jump_or_complete]
    exact .internal (congrArg Except.ok (c.jump_or_complete _ target))
  | jumpIfOverflow target =>
    obtain rfl := Except.ok.inj h
    rw [jump_or_complete]
    exact .internal (congrArg Except.ok (c.jump_or_complete _ target))
  | add =>
    obtain rfl := Except.ok.inj h
    exact .internal rfl
  | subtract =>
    obtain rfl := Except.ok.inj h
    exact .internal rfl
  | halt =>
    obtain rfl := Except.ok.inj h
    exact .internal rfl

end Core

end Accumulator
