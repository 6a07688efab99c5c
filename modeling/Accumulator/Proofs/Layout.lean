import Accumulator.Proofs.Decoding
import Accumulator.Proofs.Reachable

/-!
# What a program can do to its own text

Code and data share one memory, and a store puts text where the next fetch may look for an
instruction.  `Layout` is the invariant of execution after a program was loaded: a cell holds the
word that was loaded, or it is one of the data cells handed out so far and holds the decimal text of
an integer.

Decimal text is no instruction, so whatever is executed is in the loaded program
(`no_self_modification`).  A program can destroy its own instructions, but not make new ones.
-/

namespace Accumulator

open Numeral (decimal)

/-- The word at an address when a program has been loaded into untouched memory. -/
def loadedWord (program : List Word) (address : Int) : Word := program[address.toNat]?.getD .empty

/-- Whether an instruction is the one in the line that was loaded at an address. -/
def IsLine (program : List Word) (pc : Int) (i : Instruction) : Prop :=
  0 ≤ pc ∧ pc < program.length ∧ Instruction.decode (loadedWord program pc) (some pc) = .ok i

/-- A cell that can be read can be written to. -/
theorem Memory.exists_write_of_read {m : Memory} {address : Int} {word : Word}
    (h : m.read address = .ok word) (new : Word) : ∃ n, m.write address new = .ok n :=
  ⟨_, dif_pos (exists_read_eq_ok_iff.1 ⟨word, h⟩)⟩

/-- An integer between zero and the greatest index can be written out. -/
theorem fits_of_le_maxIndex {n : Int} (h0 : 0 ≤ n) (h : n ≤ maxIndex) :
    Numeral.fits n := by
  have hroom : maxIndex.natAbs < Numeral.bound := by decide +kernel
  exact Numeral.fits_of_natAbs_le (by omega) hroom

namespace Core

variable {c d : Core} {program : List Word} {size : Int}

/-- Whether the cell at an address holds the decimal text of an integer. -/
def HoldsDecimal (c : Core) (address : Int) : Prop :=
  ∃ n, c.memory.read address = .ok (.text (decimal n))

/-- How memory of a size looks when a loaded program has been executed for a while. -/
structure Layout (program : List Word) (size : Int) (c : Core) : Prop where
  dataStart : c.symbols.dataStart = Memory.dataStart
  sound : c.symbols.Sound
  size_eq : c.memory.size = size
  cells : ∀ address word, c.memory.read address = .ok word → word = loadedWord program address ∨
    Memory.dataStart ≤ address ∧ address < c.symbols.next ∧ c.HoldsDecimal address

/-! ### Cells with decimal text -/

theorem holdsDecimal_of_write {address other n : Int} {memory : Memory}
    (h : c.memory.write address (.text (decimal n)) = .ok memory)
    (hother : other = address ∨ c.HoldsDecimal other) :
    HoldsDecimal { c with memory } other := by
  rw [HoldsDecimal, Memory.read_write h]
  by_cases heq : other = address
  · rw [if_pos heq]
    exact ⟨n, rfl⟩
  · rw [if_neg heq]
    exact hother.resolve_left heq

/-- A cell with decimal text keeps having one. -/
theorem HoldsDecimal.execute {address : Int} (hc : c.HoldsDecimal address) {i : Instruction}
    (h : c.execute i = .ok d) : d.HoldsDecimal address := by
  cases coreEffect h with
  | declared => exact hc
  | loaded => exact hc
  | stored _ _ hwrite => exact holdsDecimal_of_write hwrite (Or.inr hc)
  | internal => exact hc

/-- A store leaves decimal text behind. -/
theorem holdsDecimal_of_store {name : String} {address : Int}
    (hbound : c.symbols.address? name = some address) (h : c.execute (.store name) = .ok d) :
    d.HoldsDecimal address := by
  obtain ⟨found, memory, hfound, -, hwrite, rfl⟩ := of_execute_store h
  rw [hbound] at hfound
  obtain rfl := Option.some.inj hfound
  exact holdsDecimal_of_write hwrite (Or.inl rfl)

/-! ### The invariant -/

theorem Layout.of_eq (hc : c.Layout program size) (hmemory : d.memory = c.memory)
    (hsymbols : d.symbols = c.symbols) : d.Layout program size := by
  obtain ⟨hstart, hsound, hsize, hcells⟩ := hc
  rw [← hmemory] at hsize
  rw [← hsymbols] at hstart hsound
  refine ⟨hstart, hsound, hsize, fun address word h => ?_⟩
  rw [hmemory] at h
  rw [HoldsDecimal, hsymbols, hmemory]
  exact hcells address word h

/-- A declaration hands out one more data cell. -/
theorem Layout.declare (hc : c.Layout program size) {name : String} {symbols : SymbolTable}
    (h : c.symbols.declare name = .ok symbols) : Layout program size { c with symbols } := by
  have hsound := hc.sound.declare h
  obtain ⟨-, rfl⟩ := SymbolTable.declare_eq_ok_iff.1 h
  refine ⟨hc.dataStart, hsound, hc.size_eq, fun address word hread => ?_⟩
  rcases hc.cells address word hread with hword | ⟨hlo, hhi, hdecimal⟩
  · exact Or.inl hword
  · exact Or.inr ⟨hlo, Int.lt_trans hhi (Int.lt_succ _), hdecimal⟩

/-- A store changes one of the data cells handed out so far. -/
theorem Layout.store (hc : c.Layout program size) {name : String} {address n : Int}
    {memory : Memory} (hbound : c.symbols.address? name = some address)
    (hwrite : c.memory.write address (.text (decimal n)) = .ok memory) :
    Layout program size { c with memory } := by
  have hread : ∀ other, memory.read other =
      if other = address then .ok (.text (decimal n)) else c.memory.read other :=
    fun _ => Memory.read_write hwrite
  have hwithin := hc.sound.within name address hbound
  rw [hc.dataStart] at hwithin
  refine ⟨hc.dataStart, hc.sound, (Memory.size_write hwrite).trans hc.size_eq, ?_⟩
  intro other word hother
  -- the cell that is written was handed out before, and all others read as they did
  by_cases heq : other = address
  · rw [heq]
    exact Or.inr ⟨hwithin.1, hwithin.2, holdsDecimal_of_write hwrite (Or.inl rfl)⟩
  · have hbefore : c.memory.read other = .ok word := by
      rw [← hother]
      show _ = memory.read other
      rw [hread, if_neg heq]
    rcases hc.cells other word hbefore with hword | ⟨hlo, hhi, hdecimal⟩
    · exact Or.inl hword
    · exact Or.inr ⟨hlo, hhi, holdsDecimal_of_write hwrite (Or.inr hdecimal)⟩

theorem Layout.execute (hc : c.Layout program size) {i : Instruction} (h : c.execute i = .ok d) :
    d.Layout program size := by
  cases coreEffect h with
  | declared hdeclare => exact (hc.declare hdeclare).of_eq rfl rfl
  | loaded => exact hc.of_eq rfl rfl
  | stored hbound _ hwrite => exact (hc.store hbound hwrite).of_eq rfl rfl
  | internal => exact hc.of_eq rfl rfl

/-! ### Fetching -/

/-- What is fetched was loaded. -/
theorem Layout.fetch (hc : c.Layout program size) {i : Instruction} (h : c.fetch = .ok i) :
    IsLine program c.registers.programCounter i := by
  obtain ⟨word, hread, hdecode⟩ := bind_eq_ok h
  generalize c.registers.programCounter = pc at hread hdecode
  have hwithin := Memory.exists_read_eq_ok_iff.1 ⟨word, hread⟩
  rcases hc.cells pc word hread with rfl | ⟨-, -, n, hn⟩
  · refine ⟨hwithin.1, Int.not_le.1 fun hle => ?_, hdecode⟩
    -- behind the program are untouched cells, which are no instructions
    have hline : program[pc.toNat]? = none := List.getElem?_eq_none (by omega)
    rw [loadedWord, hline] at hdecode
    cases hdecode
  · rw [hread] at hn
    rw [Except.ok.inj hn, Instruction.decode_decimal] at hdecode
    cases hdecode

/-- Decimal text is not fetched as an instruction. -/
theorem fetch_of_holdsDecimal (h : c.HoldsDecimal c.registers.programCounter)
    (hfits : Numeral.fits c.registers.programCounter) : ∃ fault, c.fetch = .error (.fault fault) ∧
      fault.kind = .invalidOpcode ∧ fault.address = some c.registers.programCounter := by
  obtain ⟨n, hread⟩ := h
  refine ⟨⟨.unknownOpcode (decimal n), some c.registers.programCounter⟩, ?_, rfl, rfl⟩
  have hfetch : c.fetch = Instruction.decode (.text (decimal n)) c.registers.programCounter := by
    rw [fetch, hread]
    rfl
  rw [hfetch, Instruction.decode_decimal, Failure.ofCause, if_pos]
  simpa [Fault.isWritable, Cause.numerals] using hfits

end Core

namespace Machine

variable {m : Machine} {program : List Word} {size : Int}

/-- A loaded program is laid out as it was given. -/
theorem layout_load (hm : m.Fitted) (h : (m.load program).answer = .ok ()) :
    (m.load program).machine.Layout program m.memory.size := by
  unfold load at h ⊢
  split at h
  · cases h
  · next memory hload =>
    have hsize := Memory.size_load hload
    refine ⟨hm.dataStart, SymbolTable.Sound.new _ _, hsize, fun address word h => Or.inl ?_⟩
    change memory.read address = .ok word at h
    have hwithin : 0 ≤ address ∧ address < m.memory.size := by
      rw [← show memory.size = m.memory.size from hsize]
      exact Memory.exists_read_eq_ok_iff.1 ⟨word, h⟩
    obtain ⟨k, rfl⟩ := Int.eq_ofNat_of_zero_le hwithin.1
    rw [Memory.read_load hload] at h
    unfold loadedWord
    rw [Int.toNat_natCast]
    cases hline : program[k]? with
    | some line =>
      rw [hline] at h
      exact (Except.ok.inj h).symm
    | none =>
      rw [hline] at h
      dsimp only at h
      rw [Memory.read_blank hwithin.1 hwithin.2] at h
      exact (Except.ok.inj h).symm

theorem layout_step (hm : m.Layout program size) : m.step.machine.Layout program size := by
  rcases m.toCore_step with h | ⟨i, -, h⟩
  · rw [h]
    exact hm
  · exact hm.execute h

theorem holdsDecimal_step {address : Int} (hm : m.HoldsDecimal address) :
    m.step.machine.HoldsDecimal address := by
  rcases m.toCore_step with h | ⟨i, -, h⟩
  · rw [h]
    exact hm
  · exact hm.execute h

/-- A fetch that meets a fault ends the program with it and changes nothing else. -/
theorem step_of_fetch_fault {fault : Fault} (hm : m.state.isTerminal = false)
    (h : m.fetch = .error (.fault fault)) : m.step =
      ⟨{ m with state := .faulted, fault := some fault }, .ok .faulted,
        #[.faulted m.registers.programCounter fault]⟩ := by
  rw [step_eq_settle hm, cycle, h]
  rfl

/-- An address of memory can be written out. -/
theorem fits_of_holdsDecimal {address : Int} (hm : m.Fitted) (h : m.HoldsDecimal address) :
    Numeral.fits address := by
  obtain ⟨n, hread⟩ := h
  have hwithin := Memory.exists_read_eq_ok_iff.1 ⟨_, hread⟩
  exact fits_of_le_maxIndex hwithin.1 (Int.le_trans (Int.le_of_lt hwithin.2) hm.size_le)

/-- **A program cannot make new instructions.**  However a loaded program is stepped and run, every
cell below the data cells and every one not handed out yet is as it was loaded, and every other one
is so or holds the decimal text of an integer.  Every instruction that is fetched at an address is
the one in the line loaded there.  A cell that a store has written holds decimal text, and keeps
having one; a fetch from it is an invalid opcode. -/
theorem no_self_modification (hm : Reachable m) (hload : (m.load program).answer = .ok ())
    (requests : List Execution) :
    let loaded := (m.load program).machine
    let later := loaded.after requests
    (later.memory.size = m.memory.size ∧
      ∀ address, 0 ≤ address → address < m.memory.size → ∃ word,
        later.memory.read address = .ok word ∧ (word = loadedWord program address ∨
          Memory.dataStart ≤ address ∧ address < later.symbols.next ∧
            ∃ n, word = .text (decimal n))) ∧
    ((∀ i, later.fetch = .ok i → IsLine program later.registers.programCounter i) ∧
      ∀ pc i, .decoded pc i ∈ loaded.journal requests → IsLine program pc i) ∧
    (∀ name address, later.fetch = .ok (.store name) →
      later.symbols.address? name = some address → later.step.answer = .ok .ready →
      later.step.machine.HoldsDecimal address) ∧
    ∀ address, later.HoldsDecimal address →
      (∀ further, (later.after further).HoldsDecimal address) ∧
      (later.registers.programCounter = address → later.state.isTerminal = false →
        ∃ fault, fault.kind = .invalidOpcode ∧ fault.address = some address ∧
          later.step.answer = .ok .faulted ∧
          later.step.machine = { later with state := .faulted, fault := some fault }) := by
  intro loaded later
  have hloaded : loaded.Layout program m.memory.size := layout_load hm.fitted hload
  have hfitted : later.Fitted := fitted_after (fitted_load hm.fitted program) requests
  obtain ⟨hlayout, hdecoded⟩ := after_induction
    (P := fun n => n.Layout program m.memory.size)
    (Q := IsLine program) (fun _ _ h => h) (fun _ h => layout_step h)
    (fun _ _ h hfetch => h.fetch hfetch)
    hloaded requests
  refine ⟨⟨hlayout.size_eq, fun address hlo hhi => ?_⟩,
    ⟨fun i hfetch => hlayout.fetch hfetch, hdecoded⟩, ?_, ?_⟩
  · rw [← hlayout.size_eq] at hhi
    obtain ⟨word, hread⟩ := Memory.exists_read_eq_ok_iff.2 ⟨hlo, hhi⟩
    refine ⟨word, hread, ?_⟩
    rcases hlayout.cells address word hread with hword | ⟨hstart, hnext, n, hn⟩
    · exact Or.inl hword
    · rw [hread] at hn
      exact Or.inr ⟨hstart, hnext, n, Except.ok.inj hn⟩
  · intro name address hfetch hbound hanswer
    obtain ⟨i, hi, hexecute⟩ := execute_of_goesOn (goesOn_iff.2 hanswer)
    rw [hfetch] at hi
    obtain rfl := Except.ok.inj hi
    exact Core.holdsDecimal_of_store hbound hexecute
  · intro address hdecimal
    refine ⟨fun further => ?_, fun hpc hrunning => ?_⟩
    · exact (after_induction (P := fun n => n.HoldsDecimal address) (Q := fun _ _ => True)
        (fun _ _ h => h) (fun _ h => holdsDecimal_step h) (fun _ _ _ _ => trivial)
        hdecimal further).1
    · subst hpc
      obtain ⟨fault, hfetch, hkind, haddress⟩ :=
        Core.fetch_of_holdsDecimal hdecimal (fits_of_holdsDecimal hfitted hdecimal)
      have hstep := step_of_fetch_fault hrunning hfetch
      exact ⟨fault, hkind, haddress, by rw [hstep], by rw [hstep]⟩

/-- A program that jumps to the variable that it has stored. -/
def storing : List Word := [.text "DEC X", .text "LDI 7", .text "STR X", .text "JMP 128"]

/-- A machine with two cells for data, and batches of two. -/
def small : Machine := blank 2 Nat.two_pos 130

theorem no_self_modification_storing :
    Reachable small ∧ (small.load storing).answer = .ok () ∧ ∃ fault : Fault,
      fault.kind = .invalidOpcode ∧ fault.address = some 128 ∧
        ((small.load storing).machine.after [.run (some [true]) none]).step.answer =
          .ok .faulted := by
  have hsmall : Reachable small := .new (show Machine.new 2 130 = .ok small from rfl)
  have hload : (small.load storing).answer = .ok () := rfl
  obtain ⟨-, -, -, hcells⟩ := no_self_modification hsmall hload [.run (some [true]) none]
  have hdecimal := (hcells 128 ⟨7, Memory.read_eq_cells.2 (by decide +kernel)⟩).2
  obtain ⟨fault, hkind, haddress, hanswer, -⟩ :=
    hdecimal (by decide +kernel) (by decide +kernel)
  exact ⟨hsmall, hload, fault, hkind, haddress, hanswer⟩

end Machine

end Accumulator
