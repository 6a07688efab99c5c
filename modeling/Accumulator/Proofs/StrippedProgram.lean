import Accumulator.Proofs.History
import Accumulator.Proofs.Loading
import Accumulator.Proofs.Lockstep
import Accumulator.Proofs.Stripping

/-!
# Programs with stripped lines

The blanks around the lines of a program do not change what it does.  Two machines, one loaded with
the lines as they are and one with stripped lines, are `Abreast`: they have the same registers,
symbols, state and trace, and each cell holds the same in both, unless it still holds its line
(`SameButBlanks`).

A line is decoded as the stripped one is, and stands for the same integer, so that such machines
fetch and load the same; where they store, they store the same text.  So they are in lockstep
(`lockstep_abreast`).  Only the wording of a fault can differ, since it shows the word that was to
be loaded: two failures have the same mark (`Failure.SameMark`) if they are faults of the same kind
and address or the same numeral that is too long.
-/

namespace Accumulator

open Text

/-! ### Results that differ in the wording of faults -/

/-- What a fault says besides its wording: its kind and its address. -/
def Fault.mark (fault : Fault) : FaultKind × Option Int := (fault.kind, fault.address)

/-- Two failures that differ in the wording of a fault at most. -/
inductive Failure.SameMark : Failure → Failure → Prop
  | fault {fault other : Fault} (mark : fault.mark = other.mark) :
      SameMark (.fault fault) (.fault other)
  | overlong (error : Overlong) : SameMark (.overlong error) (.overlong error)

theorem Failure.SameMark.refl (failure : Failure) : failure.SameMark failure := by
  cases failure with
  | fault fault => exact .fault rfl
  | overlong error => exact .overlong error

/-- Causes of one kind that write out the same integers make failures of one mark. -/
theorem Failure.sameMark_ofCause (cause other : Cause) (address : Option Int)
    (hkind : cause.kind = other.kind) (hnumerals : cause.numerals = other.numerals) :
    (ofCause cause address).SameMark (ofCause other address) := by
  have hwritable : Fault.isWritable ⟨cause, address⟩ = Fault.isWritable ⟨other, address⟩ := by
    rw [Fault.isWritable, Fault.isWritable, hnumerals]
  have hmark : Fault.mark ⟨cause, address⟩ = Fault.mark ⟨other, address⟩ :=
    congrArg (·, address) hkind
  unfold ofCause
  rw [hwritable]
  split
  · exact .fault hmark
  · exact .overlong _

/-- A text that is no integer makes the same fault as the stripped text, in other words. -/
theorem Failure.sameMark_corruptData (s : String) (address : Int) :
    (ofCause (.corruptData (.text s)) address).SameMark
      (ofCause (.corruptData (.text (strip s))) address) := by
  have hkind : (Cause.corruptData (.text s)).kind =
      (Cause.corruptData (.text (strip s))).kind := rfl
  have hnumerals : (Cause.corruptData (.text s)).numerals =
      (Cause.corruptData (.text (strip s))).numerals := rfl
  exact sameMark_ofCause _ _ _ hkind hnumerals

/-- Two results: values in a relation, or failures of one mark. -/
inductive RelatedResults {α β : Type} (R : α → β → Prop) :
    Except Failure α → Except Failure β → Prop
  | ok {a : α} {b : β} (related : R a b) : RelatedResults R (.ok a) (.ok b)
  | error {failure other : Failure} (same : failure.SameMark other) :
      RelatedResults R (.error failure) (.error other)

namespace RelatedResults

variable {α β α' β' : Type} {R : α → β → Prop} {S : α' → β' → Prop}

theorem refl (result : Except Failure α) : RelatedResults Eq result result := by
  cases result with
  | error failure => exact .error (.refl failure)
  | ok a => exact .ok rfl

theorem bind {x : Except Failure α} {y : Except Failure β} {f : α → Except Failure α'}
    {g : β → Except Failure β'} (h : RelatedResults R x y)
    (hfg : ∀ a b, R a b → RelatedResults S (f a) (g b)) : RelatedResults S (x >>= f) (y >>= g) := by
  cases h with
  | ok hab => exact hfg _ _ hab
  | error hsame => exact .error hsame

/-- One result that both sides go on with. -/
theorem bind_same (x : Except Failure α) {f : α → Except Failure α'} {g : α → Except Failure β'}
    (hfg : ∀ a, RelatedResults S (f a) (g a)) : RelatedResults S (x >>= f) (x >>= g) :=
  (refl x).bind fun a _ hab => hab ▸ hfg a

end RelatedResults

/-! ### Cores -/

/-- Whether an address holds the same word in both memories, or in one a line of the program and in
the other the stripped line. -/
inductive SameButBlanks (lines : List String) (m n : Memory) (address : Int) : Prop
  | same (read : m.read address = n.read address)
  | line {line : String} (loaded : lines[address.toNat]? = some line)
      (read : m.read address = .ok (.text line))
      (stripped : n.read address = .ok (.text (strip line)))

namespace Core

variable {c d : Core} {lines : List String}

/-- Cores that differ in the blanks around lines of the program at most. -/
structure Abreast (lines : List String) (c d : Core) : Prop where
  registers : c.registers = d.registers
  symbols : c.symbols = d.symbols
  size : c.memory.size = d.memory.size
  cells : ∀ address, SameButBlanks lines c.memory d.memory address

/-- The registers of both cores replaced by the same ones. -/
theorem Abreast.withRegisters (h : c.Abreast lines d) (registers : Registers) :
    Abreast lines { c with registers } { d with registers } :=
  ⟨rfl, h.symbols, h.size, h.cells⟩

theorem Abreast.complete (h : c.Abreast lines d) : c.complete.Abreast lines d.complete := by
  rw [Core.complete, Core.complete, h.registers]
  exact h.withRegisters _

theorem Abreast.jump (h : c.Abreast lines d) (target : Int) :
    (c.jump target).Abreast lines (d.jump target) := by
  rw [Core.jump, Core.jump, h.registers]
  exact h.withRegisters _

theorem Abreast.branch (h : c.Abreast lines d) (flag : Bool) (target : Int) :
    (if flag then c.jump target else c.complete).Abreast lines
      (if flag then d.jump target else d.complete) := by
  cases flag
  · exact h.complete
  · exact h.jump target

/-- Both fetch the same instruction, or fail with the same words. -/
theorem Abreast.fetch (h : c.Abreast lines d) : c.fetch = d.fetch := by
  rw [Core.fetch, Core.fetch, h.registers]
  cases h.cells d.registers.programCounter with
  | same hread => rw [hread]
  | line _ hread hstripped =>
    rw [hread, hstripped]
    simp only [bind, Except.bind, Instruction.decode_strip]

/-- Both read the same integer, or fail alike. -/
theorem Abreast.readInteger (h : c.Abreast lines d) (address : Int) :
    RelatedResults Eq (c.readInteger address) (d.readInteger address) := by
  cases h.cells address with
  | same hread =>
    rw [Core.readInteger, Core.readInteger, hread]
    exact .refl _
  | @line line _ hread hstripped =>
    rw [Core.readInteger, Core.readInteger, hread, hstripped]
    simp only [bind, Except.bind, Numeral.read_strip]
    cases Numeral.read line with
    | error error => exact .error (.overlong error)
    | ok n? =>
      cases n? with
      | none => exact .error (Failure.sameMark_corruptData line address)
      | some n => exact .ok rfl

/-- Both write the same word, or fail with the same words. -/
theorem Abreast.write (h : c.Abreast lines d) (address : Int) (word : Word) :
    RelatedResults (fun memory other => Abreast lines { c with memory } { d with memory := other })
      (c.memory.write address word) (d.memory.write address word) := by
  by_cases hin : 0 ≤ address ∧ address < c.memory.size
  · obtain ⟨memory, hwrite⟩ : ∃ memory, c.memory.write address word = .ok memory :=
      ⟨_, dif_pos hin⟩
    obtain ⟨other, hother⟩ : ∃ other, d.memory.write address word = .ok other :=
      ⟨_, dif_pos (h.size ▸ hin)⟩
    rw [hwrite, hother]
    refine .ok ⟨h.registers, h.symbols, ?_, fun a => ?_⟩
    · exact (Memory.size_write hwrite).trans (h.size.trans (Memory.size_write hother).symm)
    · have hleft : memory.read a = if a = address then .ok word else c.memory.read a :=
        Memory.read_write hwrite
      have hright : other.read a = if a = address then .ok word else d.memory.read a :=
        Memory.read_write hother
      by_cases ha : a = address
      · rw [if_pos ha] at hleft hright
        exact .same (hleft.trans hright.symm)
      -- at the other addresses nothing has changed
      · rw [if_neg ha] at hleft hright
        cases h.cells a with
        | same hread => exact .same (hleft.trans (hread.trans hright.symm))
        | line hloaded hread hstripped =>
          exact .line hloaded (hleft.trans hread) (hright.trans hstripped)
  · have hwrite : c.memory.write address word =
        .error (.ofCause (.outsideMemory address c.memory.size)) := dif_neg hin
    have hother : d.memory.write address word =
        .error (.ofCause (.outsideMemory address d.memory.size)) := dif_neg (h.size ▸ hin)
    rw [hwrite, hother, h.size]
    exact .error (.refl _)

/-- **Both execute an instruction alike.** -/
theorem Abreast.execute (h : c.Abreast lines d) (i : Instruction) :
    RelatedResults (Abreast lines) (c.execute i) (d.execute i) := by
  obtain ⟨registers, memory, symbols⟩ := c
  obtain ⟨_, other, _⟩ := d
  obtain ⟨rfl, rfl, -, -⟩ := id h
  cases i with
  | declare name =>
    refine .bind_same (symbols.declare name) fun table => .ok (Abreast.complete ?_)
    exact ⟨rfl, rfl, h.size, h.cells⟩
  | load name =>
    refine .bind_same (symbols.resolve name) fun address => (h.readInteger address).bind ?_
    rintro n _ rfl
    exact .ok (h.withRegisters _).complete
  | store name =>
    refine .bind_same (symbols.resolve name) fun address => .bind_same _ fun text => ?_
    exact (h.write address (.text text)).bind fun _ _ hwritten => .ok hwritten.complete
  | loadImmediate n => exact .ok (h.withRegisters _).complete
  | exchange => exact .ok (h.withRegisters _).complete
  | jump target => exact .ok (h.jump target)
  | jumpIfZero target => exact .ok (h.branch _ target)
  | jumpIfOverflow target => exact .ok (h.branch _ target)
  | add => exact .ok (h.withRegisters _).complete
  | subtract => exact .ok (h.withRegisters _).complete
  | halt => exact .ok (h.withRegisters _)

/-! ### Cells that were stored in -/

/-- A cell that holds the text of an integer goes on doing so. -/
theorem holds_decimal_execute {i : Instruction} {address n : Int}
    (hn : c.memory.read address = .ok (.text (Numeral.decimal n))) (h : c.execute i = .ok d) :
    ∃ k, d.memory.read address = .ok (.text (Numeral.decimal k)) := by
  cases coreEffect h with
  | declared => exact ⟨n, hn⟩
  | loaded => exact ⟨n, hn⟩
  | @stored _ target memory _ _ hwrite =>
    by_cases heq : address = target
    · exact ⟨_, (Memory.read_write hwrite).trans (if_pos heq)⟩
    · exact ⟨n, ((Memory.read_write hwrite).trans (if_neg heq)).trans hn⟩
  | internal => exact ⟨n, hn⟩

/-- A cell that was stored in holds the text of an integer ever after. -/
theorem Leads.holds_decimal {history : List Deed} (h : Leads c history d) {deed : Deed}
    (hdeed : deed ∈ history) {name : String} {address : Int} (hi : deed.instruction = .store name)
    (hbound : deed.before.symbols.address? name = some address) :
    ∃ n, d.memory.read address = .ok (.text (Numeral.decimal n)) := by
  induction h with
  | start => exact absurd hdeed List.not_mem_nil
  | @next history last _ ih =>
    rcases List.mem_cons.1 hdeed with rfl | hearlier
    · obtain ⟨target, memory, htarget, -, hwrite, hafter⟩ := of_execute_store (hi ▸ deed.executed)
      obtain rfl := Option.some.inj (htarget.symm.trans hbound)
      rw [hafter]
      exact ⟨_, (Memory.read_write hwrite).trans (if_pos rfl)⟩
    · obtain ⟨n, hn⟩ := ih hearlier
      exact holds_decimal_execute hn last.executed

/-- Where one core holds the text of an integer, the other does so too: there is no blank in it. -/
theorem Abreast.read_of_decimal (h : c.Abreast lines d) {address n : Int}
    (hn : c.memory.read address = .ok (.text (Numeral.decimal n))) :
    c.memory.read address = d.memory.read address := by
  cases h.cells address with
  | same hread => exact hread
  | @line line _ hread hstripped =>
    have hline : line = Numeral.decimal n :=
      Word.text.inj (Except.ok.inj (hread.symm.trans hn))
    have hsolid : ∀ c ∈ line.toList, isBlank c = false := by
      rw [hline]
      exact fun c => Numeral.isBlank_of_mem_decimal
    have hbare : strip line = line := strip_eq_self_iff.2
      ⟨fun c hc => hsolid c (List.mem_of_mem_head? hc),
        fun c hc => hsolid c (List.mem_of_getLast? hc)⟩
    rw [hread, hstripped, hbare]

end Core

/-! ### Machines -/

open Accumulator.Core (Deed Leads)

namespace Machine

variable {m n : Machine} {lines : List String}

/-- Machines that differ in the blanks around lines of the program at most, in the wording of the
fault that stopped them and in the program that they keep for a reset. -/
structure Abreast (lines : List String) (m n : Machine) : Prop where
  core : m.toCore.Abreast lines n.toCore
  state : m.state = n.state
  fault : m.fault.map Fault.mark = n.fault.map Fault.mark
  tracing : m.tracing = n.tracing
  trace : m.trace = n.trace
  batchSize : m.batchSize = n.batchSize

theorem Abreast.refl (lines : List String) (m : Machine) : m.Abreast lines m :=
  ⟨⟨rfl, rfl, rfl, fun _ => .same rfl⟩, rfl, rfl, rfl, rfl, rfl⟩

theorem Abreast.inState (h : m.Abreast lines n) (s : State) :
    (m.inState s).Abreast lines (n.inState s) :=
  { h with state := rfl }

theorem Abreast.traceLine? (h : m.Abreast lines n) (i : Instruction) :
    m.traceLine? i = n.traceLine? i := by
  rw [Machine.traceLine?, Machine.traceLine?, Machine.traceLine, Machine.traceLine, h.tracing,
    h.core.registers]

theorem Abreast.record (h : m.Abreast lines n) (line? : Option String) :
    (m.record line?).Abreast lines (n.record line?) := by
  cases line? with
  | none => exact h
  | some line => exact { h with trace := congrArg (·.push line) h.trace }

theorem Abreast.cycle (h : m.Abreast lines n) :
    RelatedResults Eq m.cycle.answer n.cycle.answer ∧
      m.cycle.machine.Abreast lines n.cycle.machine := by
  rw [Machine.cycle, Machine.cycle, h.core.fetch]
  cases n.fetch with
  | error failure => exact ⟨.refl _, h⟩
  | ok i =>
    dsimp only
    rw [h.traceLine? i]
    cases n.traceLine? i with
    | error error => exact ⟨.refl _, h⟩
    | ok line? =>
      -- up to here both are the same; the execution reads the cells
      have hrecord := h.record line?
      have hexecute := hrecord.core.execute i
      dsimp only
      generalize (m.record line?).toCore.execute i = first at hexecute
      generalize (n.record line?).toCore.execute i = second at hexecute
      cases hexecute with
      | ok hcore => exact ⟨.ok rfl, { hrecord with core := hcore }⟩
      | error hsame => exact ⟨.error hsame, hrecord⟩

/-- **Machines that are abreast answer a step alike and stay abreast.** -/
theorem Abreast.step (h : m.Abreast lines n) :
    m.step.answer = n.step.answer ∧ m.step.machine.Abreast lines n.step.machine := by
  cases hm : m.state.isTerminal with
  | true =>
    have hn : n.state.isTerminal = true := h.state ▸ hm
    rw [Machine.step, hm, Machine.step, hn]
    exact ⟨congrArg Except.ok h.state, h⟩
  | false =>
    have hn : n.state.isTerminal = false := h.state ▸ hm
    obtain ⟨hanswer, hcycle⟩ := h.cycle
    rw [step_eq_settle hm, step_eq_settle hn]
    unfold settle
    dsimp only
    generalize m.cycle.answer = first at hanswer
    generalize n.cycle.answer = second at hanswer
    cases hanswer with
    | @ok pace _ hpace =>
      subst hpace
      cases pace <;> exact ⟨rfl, hcycle.inState _⟩
    | error hsame =>
      cases hsame with
      | fault hmark => exact ⟨rfl, { hcycle.inState .faulted with fault := congrArg some hmark }⟩
      | overlong error => exact ⟨rfl, hcycle.inState .running⟩

/-- **Machines that are abreast are in lockstep.** -/
theorem lockstep_abreast (lines : List String) : Lockstep (Abreast lines) where
  state h := h.state
  answer h := h.step.1
  step h := h.step.2
  inState h s := h.inState s

/-- The same request means the same to both. -/
theorem Abreast.corresponds (h : m.Abreast lines n) (request : Execution) :
    request.Corresponds m n request := by
  cases request with
  | step => exact .step
  | run answers asked =>
    cases asked with
    | none => exact .run h.batchSize
    | some size => exact .run rfl

theorem Abreast.perform (h : m.Abreast lines n) (request : Execution) :
    (m.perform request).answer = (n.perform request).answer ∧
      (m.perform request).machine.Abreast lines (n.perform request).machine :=
  (lockstep_abreast lines).perform h (h.corresponds request)

theorem Abreast.after (h : m.Abreast lines n) (requests : List Execution) :
    (m.after requests).Abreast lines (n.after requests) := by
  induction requests generalizing m n with
  | nil => exact h
  | cons request requests ih => exact ih (h.perform request).2

/-! ### Loading -/

/-- What a cell holds after a program was loaded into fresh memory. -/
theorem sameButBlanks_of_load {size : Int} {memory other : Memory}
    (hload : (Memory.blank size).load (lines.map .text) = .ok memory)
    (hother : (Memory.blank size).load (lines.map fun line => .text (strip line)) = .ok other)
    (address : Int) : SameButBlanks lines memory other address := by
  by_cases hnegative : address < 0
  · have hsize : memory.size = other.size :=
      (Memory.size_load hload).trans (Memory.size_load hother).symm
    refine .same ?_
    rw [Memory.read, Memory.read, dif_neg (by omega), dif_neg (by omega), hsize]
  · obtain ⟨k, rfl⟩ := Int.eq_ofNat_of_zero_le (Int.not_lt.1 hnegative)
    cases hline : lines[k]? with
    | none =>
      have hread : memory.read k = (Memory.blank size).read k := by
        rw [Memory.read_load hload, List.getElem?_map, hline]
        rfl
      have hreadOther : other.read k = (Memory.blank size).read k := by
        rw [Memory.read_load hother, List.getElem?_map, hline]
        rfl
      exact .same (hread.trans hreadOther.symm)
    | some line =>
      have hread : memory.read k = .ok (.text line) := by
        rw [Memory.read_load hload, List.getElem?_map, hline]
        rfl
      have hreadOther : other.read k = .ok (.text (strip line)) := by
        rw [Memory.read_load hother, List.getElem?_map, hline]
        rfl
      exact .line hline hread hreadOther

/-- A program and the stripped program are both loaded or both refused. -/
theorem abreast_load (m : Machine) (lines : List String) :
    (m.load (lines.map .text)).answer =
        (m.load (lines.map fun line => .text (strip line))).answer ∧
      (m.load (lines.map .text)).machine.Abreast lines
        (m.load (lines.map fun line => .text (strip line))).machine := by
  by_cases hfits : (lines.length : Int) ≤ m.memory.size
  · obtain ⟨memory, hload⟩ : ∃ memory,
        (Memory.blank m.memory.size).load (lines.map .text) = .ok memory :=
      ⟨_, dif_pos (by rw [List.length_map]; exact hfits)⟩
    obtain ⟨other, hother⟩ : ∃ other, (Memory.blank m.memory.size).load
        (lines.map fun line => .text (strip line)) = .ok other :=
      ⟨_, dif_pos (by rw [List.length_map]; exact hfits)⟩
    rw [load, load, hload, hother]
    have hsize : memory.size = other.size :=
      (Memory.size_load hload).trans (Memory.size_load hother).symm
    have hcells := sameButBlanks_of_load hload hother
    exact ⟨rfl, ⟨rfl, rfl, hsize, hcells⟩, rfl, rfl, rfl, rfl, rfl⟩
  · have hexceeds : m.memory.size < lines.length := by omega
    rw [load_of_length_gt (by rw [List.length_map]; exact hexceeds),
      load_of_length_gt (by rw [List.length_map]; exact hexceeds), List.length_map,
      List.length_map]
    exact ⟨rfl, .refl lines m⟩

/-- **Stripping the lines of a program does not change what it does.**  One machine is loaded with
the lines as they are, the other with every line stripped.  Either both are refused with the same
failure, or both are loaded.  After any requests they have the same state, registers, symbols and
trace, and were stopped by faults of the same kind and address, if at all; they answer every further
request alike.  A cell holds the same in both unless it holds a line of the program and the stripped
line, and it always does once an instruction has stored in it.

In particular a text and the stripped one are decoded alike and stand for the same integer. -/
theorem stripping_is_immaterial (m : Machine) (lines : List String) :
    let raw := m.load (lines.map .text)
    let bare := m.load (lines.map fun line => .text (strip line))
    raw.answer = bare.answer ∧
    (∀ requests : List Execution,
      let first := raw.machine.after requests
      let second := bare.machine.after requests
      (first.state = second.state ∧ first.registers = second.registers ∧
        first.symbols = second.symbols ∧ first.traceText = second.traceText ∧
        first.fault.map Fault.mark = second.fault.map Fault.mark) ∧
      (∀ request, (first.perform request).answer = (second.perform request).answer) ∧
      (∀ address, SameButBlanks lines first.memory second.memory address) ∧
      ∀ history, Leads raw.machine.toCore history first.toCore →
        ∀ deed ∈ history, ∀ name address, deed.instruction = .store name →
          deed.before.symbols.address? name = some address →
            first.memory.read address = second.memory.read address) ∧
    (∀ s address, Instruction.decode (.text (strip s)) address =
      Instruction.decode (.text s) address) ∧
    ∀ s, Numeral.read (strip s) = Numeral.read s := by
  intro raw bare
  obtain ⟨hanswer, hloaded⟩ := m.abreast_load lines
  refine ⟨hanswer, fun requests => ?_, Instruction.decode_strip, Numeral.read_strip⟩
  intro first second
  have h : first.Abreast lines second := hloaded.after requests
  have htrace : first.traceText = second.traceText := by rw [traceText, traceText, h.trace]
  refine ⟨⟨h.state, h.core.registers, h.core.symbols, htrace, h.fault⟩,
    fun request => (h.perform request).1, h.core.cells, ?_⟩
  intro history hleads deed hdeed name address hi hbound
  obtain ⟨n, hn⟩ := hleads.holds_decimal hdeed hi hbound
  exact h.core.read_of_decimal hn

end Machine

end Accumulator
