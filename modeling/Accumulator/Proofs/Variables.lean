import Accumulator.Proofs.Layout
import Accumulator.Proofs.Refusal
import Accumulator.Proofs.VariableMachine

/-!
# Variables in memory

A core represents a variable machine if the registers are the same, each variable has a cell that
holds its value, and the next data cell is the one behind as many as there were declarations
(`Represents`).

Every instruction keeps the relation because of what `Layout` says of memory.  The cell that a
declaration hands out is behind the program and was never written, so it reads as zero; a store
changes the cell of one variable only, since no two names have the same; and what is fetched is a
line, or no instruction at all.  `Simulates` holds these facts together.  `Simulates.fetch_cases`
and `together_execute` say that both machines fetch and execute the same, but for a store of an
integer that is too long.
-/

namespace Accumulator

open Numeral (decimal)

/-- What is said of a fault apart from its wording: its kind and its address. -/
def Fault.gist (fault : Fault) : FaultKind × Option Int := (fault.kind, fault.address)

/-- What is said of a failure apart from the wording of a fault. -/
def Failure.gist : Failure → Except Overlong (FaultKind × Option Int)
  | .fault met => .ok met.gist
  | .overlong error => .error error

/-- The core has the registers of the variable machine and a cell for each of its variables. -/
structure Core.Represents (c : Core) (v : VariableMachine) : Prop where
  registers : c.registers = v.registers
  next : c.symbols.next = Memory.dataStart + v.declared
  undeclared : ∀ name, v.value? name = none → c.symbols.address? name = none
  declared : ∀ name n, v.value? name = some n →
    ∃ address, c.symbols.address? name = some address ∧ c.readInteger address = .ok n

/-- The core represents the variable machine, its memory is laid out as its lines say, and there is
room for them below data memory. -/
structure Core.Simulates (c : Core) (v : VariableMachine) : Prop extends c.Represents v where
  layout : c.Layout (v.lines.map .text) v.memorySize
  fitted : c.Fitted
  room : Memory.dataStart ≤ v.memorySize
  short : v.lines.length ≤ Memory.dataStart
  counter : Numeral.fits v.registers.programCounter

namespace Core

variable {c d : Core} {v w : VariableMachine}

theorem readInteger_congr {address : Int} (h : d.memory.read address = c.memory.read address) :
    d.readInteger address = c.readInteger address := by
  rw [readInteger, readInteger, h]

theorem readInteger_of_empty {address : Int} (h : c.memory.read address = .ok .empty) :
    c.readInteger address = .ok 0 := by
  rw [readInteger, h]
  rfl

theorem readInteger_of_decimal {address n : Int} (hfits : Numeral.fits n)
    (h : c.memory.read address = .ok (.text (decimal n))) : c.readInteger address = .ok n := by
  simp only [readInteger, h, Numeral.read_decimal hfits, bind, Except.bind]

/-! ### Fetching -/

/-- Behind the lines both machines meet an invalid opcode, though they may word it differently: in
a machine it can be a stored integer that is refused. -/
theorem fetch_behind_lines {word : Word} (h : c.Simulates v)
    (hread : c.memory.read c.registers.programCounter = .ok word)
    (hline : v.lines[c.registers.programCounter.toNat]? = none) :
    ∃ fault, c.fetch = .error (.fault fault) ∧
      fault.gist = (.invalidOpcode, some c.registers.programCounter) := by
  have hfits : Numeral.fits c.registers.programCounter := by
    rw [h.registers]
    exact h.counter
  rcases h.layout.cells _ word hread with hword | ⟨-, -, hdecimal⟩
  · have hempty : loadedWord (v.lines.map .text) c.registers.programCounter = .empty := by
      rw [loadedWord, List.getElem?_map, hline]
      rfl
    refine ⟨⟨.notText .empty, some c.registers.programCounter⟩, ?_, rfl⟩
    rw [fetch, hread, hword, hempty]
    show Except.error (Failure.ofCause (.notText .empty) _) = _
    rw [Failure.ofCause_of_fits]
    rintro n hn
    rcases List.mem_cons.1 hn with rfl | hn
    · exact hfits
    · rw [List.mem_singleton.1 hn]
      exact fits_of_le_maxIndex (Int.le_refl 0) (by decide)
  · obtain ⟨fault, hfetch, hkind, haddress⟩ := fetch_of_holdsDecimal hdecimal hfits
    exact ⟨fault, hfetch, by rw [Fault.gist, hkind, haddress]⟩

/-- Both machines fetch the same instruction, or fail in the same way. -/
theorem Simulates.fetch (h : c.Simulates v) :
    c.fetch.mapError Failure.gist = v.fetch.mapError Failure.gist := by
  have hpc : c.registers.programCounter = v.registers.programCounter := by rw [h.registers]
  have hsize := h.layout.size_eq
  unfold VariableMachine.fetch
  dsimp only
  rw [← hpc]
  split
  · next hwithin =>
    rw [← hsize] at hwithin
    obtain ⟨word, hread⟩ := Memory.exists_read_eq_ok_iff.2 hwithin
    split
    · next line hline =>
      -- lines are below data memory, where no store can reach them
      have hshort := h.short
      have hlt := (List.getElem?_eq_some_iff.1 hline).1
      have hloaded : word = .text line := by
        rcases h.layout.cells _ word hread with hword | ⟨hdata, -⟩
        · rw [hword, loadedWord, List.getElem?_map, hline]
          rfl
        · omega
      rw [Core.fetch, hread, hloaded]
      rfl
    · next hline =>
      obtain ⟨fault, hfetch, hgist⟩ := fetch_behind_lines h hread hline
      rw [hfetch]
      show Except.error (Except.ok fault.gist) = _
      rw [hgist]
      rfl
  · next houtside =>
    have hfault : c.memory.read c.registers.programCounter = .error
        (.fault ⟨.outsideMemory c.registers.programCounter v.memorySize, none⟩) := by
      rw [← hsize] at houtside ⊢
      rw [Memory.read, dif_neg houtside, Failure.ofCause_of_fits]
      intro n hn
      have hroom := h.room
      have hmax := h.fitted.size_le
      rcases List.mem_cons.1 hn with rfl | hn
      · rw [hpc]
        exact h.counter
      · rw [List.mem_singleton.1 hn]
        rw [Memory.dataStart] at hroom
        exact fits_of_le_maxIndex (by omega) (by omega)
    rw [Core.fetch, hfault]
    rfl

theorem Simulates.fetch_cases (h : c.Simulates v) :
    (∃ i, c.fetch = .ok i ∧ v.fetch = .ok i) ∨
      ∃ f g, c.fetch = .error f ∧ v.fetch = .error g ∧ f.gist = g.gist := by
  have hsame := h.fetch
  cases hc : c.fetch with
  | ok i =>
    rw [hc] at hsame
    cases hv : v.fetch with
    | ok j =>
      rw [hv] at hsame
      obtain rfl := Except.ok.inj hsame
      exact Or.inl ⟨i, rfl, rfl⟩
    | error g =>
      rw [hv] at hsame
      cases hsame
  | error f =>
    rw [hc] at hsame
    cases hv : v.fetch with
    | ok j =>
      rw [hv] at hsame
      cases hsame
    | error g =>
      rw [hv] at hsame
      exact Or.inr ⟨f, g, rfl, rfl, Except.error.inj hsame⟩

/-! ### Instructions -/

/-- A change of registers alone keeps them the same. -/
theorem Represents.internal (h : c.Represents v) (f : Registers → Registers) :
    Represents { c with registers := f c.registers } { v with registers := f v.registers } :=
  ⟨congrArg f h.registers, h.next, h.undeclared, h.declared⟩

/-- A variable machine sets the flags of an arithmetic result as a machine does. -/
theorem setResult_eq (v : VariableMachine) (n : Int) :
    v.setResult n = { v with registers := v.registers.accept (.ofValue n) } := by
  have hzero : (n == 0) = decide (n = 0) := rfl
  have hoverflow : (!inInt32 n) = decide (n < -2147483648 ∨ 2147483647 < n) := by
    rw [Bool.eq_iff_iff, not_inInt32_iff, decide_eq_true_iff]
  rw [VariableMachine.setResult, ← hzero, ← hoverflow]
  rfl

/-- The cell that is handed out next was never written. -/
theorem Simulates.read_next (h : c.Simulates v) (hroom : c.symbols.next < c.memory.size) :
    c.memory.read c.symbols.next = .ok .empty := by
  have hstart := h.layout.dataStart
  have hnext := h.layout.sound.dataStart_le
  have hshort := h.short
  rw [Memory.dataStart] at hstart hshort
  obtain ⟨word, hread⟩ := Memory.exists_read_eq_ok_iff.2
    (show 0 ≤ c.symbols.next ∧ c.symbols.next < c.memory.size by omega)
  rw [hread]
  rcases h.layout.cells _ word hread with hword | ⟨-, hlt, -⟩
  · have hline : v.lines[c.symbols.next.toNat]? = none := List.getElem?_eq_none (by omega)
    rw [hword, loadedWord, List.getElem?_map, hline]
    rfl
  · omega

/-- What an instruction comes to in both machines: the same failure, or cores that go together. -/
def Together (x : Except Failure Core) (y : Except Failure VariableMachine) : Prop :=
  (∃ failure, x = .error failure ∧ y = .error failure) ∨
    ∃ d w, x = .ok d ∧ y = .ok w ∧ d.Represents w

/-- There were no more declarations than there are data cells. -/
theorem Simulates.declared_bounds (h : c.Simulates v) :
    0 ≤ v.declared ∧ v.declared ≤ v.memorySize - Memory.dataStart := by
  have hlo := h.layout.sound.dataStart_le
  have hhi := h.layout.sound.next_le
  have hnext := h.next
  have hroom := h.room
  rw [h.fitted.memorySize, h.layout.size_eq] at hhi
  rw [h.layout.dataStart] at hlo hhi
  omega

/-- A declared variable has the value zero, and the others keep theirs. -/
theorem Simulates.represents_declare (h : c.Simulates v) {name : String} {symbols : SymbolTable}
    (hdeclare : c.symbols.declare name = .ok symbols) :
    Represents { c with symbols }.complete
      { v.assign name 0 with declared := v.declared + 1 }.goOn := by
  have haddress := SymbolTable.address?_of_declare hdeclare
  obtain ⟨hlt, hsymbols⟩ := SymbolTable.declare_eq_ok_iff.1 hdeclare
  rw [h.fitted.memorySize] at hlt
  constructor
  · exact congrArg (fun r => r.count.goOn) h.registers
  · show symbols.next = Memory.dataStart + (v.declared + 1)
    rw [hsymbols, h.next, Int.add_assoc]
  · intro other hother
    change (if other = name then some 0 else v.value? other) = none at hother
    show symbols.address? other = none
    rw [haddress]
    split at hother
    · cases hother
    · next hne =>
      rw [if_neg hne]
      exact h.undeclared other hother
  · intro other n hother
    change (if other = name then some 0 else v.value? other) = some n at hother
    show ∃ address, symbols.address? other = some address ∧ c.readInteger address = .ok n
    rw [haddress]
    split at hother
    · next heq =>
      -- the fresh cell is untouched, which counts as zero
      obtain rfl := Option.some.inj hother
      rw [if_pos heq]
      exact ⟨_, rfl, readInteger_of_empty (h.read_next hlt)⟩
    · next hne =>
      rw [if_neg hne]
      exact h.declared other n hother

/-- Both machines run out of room for variables at the same declaration. -/
theorem together_declare (h : c.Simulates v) (name : String) :
    Together (c.execute (.declare name)) (v.execute (.declare name)) := by
  have hnext := h.next
  have hbounds := h.declared_bounds
  have hmax := h.fitted.size_le
  have hmemory := h.fitted.memorySize
  rw [h.layout.size_eq] at hmax hmemory
  rw [VariableMachine.execute, execute]
  by_cases hfull : v.declared = v.memorySize - Memory.dataStart
  -- the next address is behind the last one exactly if every data cell was handed out
  · have hallocated : c.symbols.next - c.symbols.dataStart = v.declared := by
      rw [h.layout.dataStart]
      omega
    have hdeclare : c.symbols.declare name =
        .error (.fault ⟨.dataMemoryFull name v.declared, none⟩) := by
      rw [SymbolTable.declare, if_pos (by omega), hallocated, Failure.ofCause_of_fits]
      intro n hn
      rw [List.mem_singleton.1 hn]
      have hstart : 0 ≤ Memory.dataStart := by decide
      exact fits_of_le_maxIndex hbounds.1 (by omega)
    rw [if_pos hfull, hdeclare]
    exact Or.inl ⟨_, rfl, rfl⟩
  · obtain ⟨symbols, hdeclare⟩ : ∃ symbols, c.symbols.declare name = .ok symbols :=
      ⟨_, SymbolTable.declare_eq_ok_iff.2 ⟨by omega, rfl⟩⟩
    rw [if_neg hfull, hdeclare]
    exact Or.inr ⟨_, _, rfl, rfl, h.represents_declare hdeclare⟩

theorem resolve_of_none {name : String} (h : c.symbols.address? name = none) :
    c.symbols.resolve name = .error (.fault ⟨.unknownSymbol name, none⟩) := by
  rw [SymbolTable.resolve, h]
  show Except.error (Failure.ofCause (.unknownSymbol name)) = _
  rw [Failure.ofCause_of_fits]
  intro n hn
  cases hn

theorem together_load (h : c.Simulates v) (name : String) :
    Together (c.execute (.load name)) (v.execute (.load name)) := by
  rw [VariableMachine.execute, execute]
  cases hvalue : v.value? name with
  | none =>
    rw [resolve_of_none (h.undeclared name hvalue)]
    exact Or.inl ⟨_, rfl, rfl⟩
  | some n =>
    obtain ⟨address, hbound, hread⟩ := h.declared name n hvalue
    rw [SymbolTable.resolve_eq_ok_iff.2 hbound]
    refine Or.inr ⟨_, _, ?_, rfl,
      h.internal fun r => Registers.goOn <| Registers.count { r with accumulator := n }⟩
    show (c.readInteger address >>= _) = _
    rw [hread]
    rfl

/-- A store changes the value of one variable, for no two have the same cell. -/
theorem Simulates.represents_store (h : c.Simulates v) {name : String} {address n : Int}
    {memory : Memory} (hbound : c.symbols.address? name = some address) (hfits : Numeral.fits n)
    (hwrite : c.memory.write address (.text (decimal n)) = .ok memory) :
    Represents { c with memory } (v.assign name n) := by
  have hread : ∀ other, memory.read other =
      if other = address then .ok (.text (decimal n)) else c.memory.read other :=
    fun _ => Memory.read_write hwrite
  refine ⟨h.registers, h.next, fun other hother => ?_, fun other k hother => ?_⟩
  · change (if other = name then some n else v.value? other) = none at hother
    split at hother
    · cases hother
    · exact h.undeclared other hother
  · change (if other = name then some n else v.value? other) = some k at hother
    split at hother
    · next heq =>
      obtain rfl := Option.some.inj hother
      rw [heq]
      exact ⟨address, hbound, readInteger_of_decimal hfits ((hread address).trans (if_pos rfl))⟩
    · next hne =>
      -- the cell of another name is another cell
      obtain ⟨place, hplace, hk⟩ := h.declared other k hother
      have hother : place ≠ address := fun heq =>
        hne (h.layout.sound.distinct other name address (heq ▸ hplace) hbound)
      have hsame : memory.read place = c.memory.read place := (hread place).trans (if_neg hother)
      exact ⟨place, hplace, (readInteger_congr hsame).trans hk⟩

theorem together_store (h : c.Simulates v) (name : String)
    (hfits : ∀ n, v.value? name = some n → Numeral.fits v.registers.accumulator) :
    Together (c.execute (.store name)) (v.execute (.store name)) := by
  rw [VariableMachine.execute]
  cases hvalue : v.value? name with
  | none =>
    rw [execute, resolve_of_none (h.undeclared name hvalue)]
    exact Or.inl ⟨_, rfl, rfl⟩
  | some n =>
    obtain ⟨address, hbound, hread⟩ := h.declared name n hvalue
    have hfits := hfits n hvalue
    rw [← h.registers] at hfits
    obtain ⟨word, hword, -⟩ := bind_eq_ok hread
    obtain ⟨memory, hwrite⟩ := Memory.exists_write_of_read hword
      (.text (decimal c.registers.accumulator))
    have hstored := h.represents_store hbound hfits hwrite
    rw [show c.registers.accumulator = v.registers.accumulator by rw [h.registers]] at hstored
    refine Or.inr ⟨_, _, execute_store hbound hfits hwrite, rfl,
      hstored.internal fun r => r.count.goOn⟩

/-- A conditional jump is taken in both machines or in neither. -/
theorem Represents.jump_or_complete (h : c.Represents v) (flag : Registers → Bool) (target : Int) :
    Represents (if flag c.registers then c.jump target else c.complete)
      (if flag v.registers then v.goTo target else v.goOn) := by
  rw [h.registers]
  cases flag v.registers with
  | true => exact h.internal fun r => r.count.goTo target
  | false => exact h.internal fun r => r.count.goOn

/-- An arithmetic result is the same in both machines. -/
theorem Represents.accept (h : c.Represents v) (n : Int) :
    Represents { c with registers := c.registers.accept (.ofValue n) }.complete
      (v.setResult n).goOn := by
  rw [setResult_eq]
  exact h.internal fun r => (r.accept (.ofValue n)).count.goOn

/-- An instruction comes to the same in both machines, unless it stores an integer that is too
long. -/
theorem together_execute (h : c.Simulates v) (i : Instruction)
    (hfits : ∀ name n, i = .store name → v.value? name = some n →
      Numeral.fits v.registers.accumulator) :
    Together (c.execute i) (v.execute i) := by
  have hrepresents := h.toRepresents
  cases i with
  | declare name => exact together_declare h name
  | load name => exact together_load h name
  | store name => exact together_store h name fun n => hfits name n rfl
  | loadImmediate n =>
    exact Or.inr ⟨_, _, rfl, rfl,
      hrepresents.internal fun r => Registers.goOn <| Registers.count { r with accumulator := n }⟩
  | exchange =>
    exact Or.inr ⟨_, _, rfl, rfl, hrepresents.internal fun r => r.exchange.count.goOn⟩
  | jump target =>
    exact Or.inr ⟨_, _, rfl, rfl, hrepresents.internal fun r => r.count.goTo target⟩
  | jumpIfZero target =>
    exact Or.inr ⟨_, _, rfl, rfl, hrepresents.jump_or_complete Registers.zero target⟩
  | jumpIfOverflow target =>
    exact Or.inr ⟨_, _, rfl, rfl, hrepresents.jump_or_complete Registers.overflow target⟩
  | add =>
    refine Or.inr ⟨_, _, rfl, rfl, ?_⟩
    rw [← h.registers]
    exact hrepresents.accept _
  | subtract =>
    refine Or.inr ⟨_, _, rfl, rfl, ?_⟩
    rw [← h.registers]
    exact hrepresents.accept _
  | halt => exact Or.inr ⟨_, _, rfl, rfl, hrepresents.internal fun r => r.count⟩

/-- What goes together after an instruction can be executed further. -/
theorem Simulates.execute (h : c.Simulates v) {i : Instruction} (hi : i.WellFormed)
    (hpc : 0 ≤ v.registers.programCounter ∧ v.registers.programCounter < v.memorySize)
    (hd : c.execute i = .ok d) (hw : v.execute i = .ok w) (hrepresents : d.Represents w) :
    d.Simulates w := by
  have hmax := h.fitted.size_le
  rw [h.layout.size_eq] at hmax
  obtain ⟨hframe, -, hcounter⟩ := VariableMachine.frame_execute hw
  have hlines : w.lines = v.lines := by rw [hframe]
  have hsize : w.memorySize = v.memorySize := by rw [hframe]
  refine ⟨hrepresents, ?_, h.fitted.execute hd, ?_, ?_, ?_⟩
  · rw [hlines, hsize]
    exact h.layout.execute hd
  · rw [hsize]
    exact h.room
  · rw [hlines]
    exact h.short
  · rcases hcounter with hnext | hsame | htarget
    · rw [hnext]
      exact fits_of_le_maxIndex (by omega) (by omega)
    · rw [hsame]
      exact h.counter
    · exact hi _ htarget

theorem Simulates.of_state (h : c.Simulates v) (s : State) (fault : Option Fault) :
    c.Simulates { v with state := s, fault } :=
  ⟨⟨h.registers, h.next, h.undeclared, h.declared⟩, h.layout, h.fitted, h.room, h.short,
    h.counter⟩

end Core

end Accumulator
