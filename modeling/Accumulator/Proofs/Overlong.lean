import Accumulator.Proofs.Programmed

/-!
# Numerals that are too long

A program deals in integers of any size and in their numerals, which are limited.  Where an
instruction needs a numeral beyond the limit its step ends without a fault, and the machine is left
in the middle of it.  `Core.Overruns` lists the instructions that do: one with a literal of too many
digits, a load from a cell with such a literal, a store of an accumulator that cannot be written
out, and one with more operands than can be counted.  With a trace there is also the line that shows
the registers (`Machine.Overruns`).

In a machine with a program of text lines nothing else keeps a failure from being a fault
(`failure_is_fault_unless_overrun`): every message can be written, for it shows the program counter,
the size of memory or a number of data cells.
-/

namespace Accumulator

open Numeral (fits)

/-- Whether the registers that a trace line shows can be written out. -/
def Registers.Writable (r : Registers) : Prop :=
  fits r.programCounter ∧ fits r.accumulator ∧ fits r.data

/-- The opcodes with a numeral behind them. -/
theorem Opcode.exists_pattern_eq_numeric_iff {op : Opcode} :
    (∃ make, op.pattern = .numeric make) ↔
      op.operandKind = .immediate ∨ op.operandKind = .address := by
  cases op <;> simp [pattern, operandKind]

namespace Core

variable {c : Core} {program : List Word}

/-- Whether the instruction at the program counter needs a numeral that is too long. -/
inductive Overruns (c : Core) : Prop
  /-- Its literal or address has too many digits. -/
  | literal {op : Opcode} {numeral : String} {error : Overlong}
      (kind : op.operandKind = .immediate ∨ op.operandKind = .address)
      (tokens : c.Tokens [op.mnemonic, numeral]) (read : Numeral.read numeral = .error error)
  /-- It has one operand too many or too few, and the message cannot say how many there are. -/
  | count {op : Opcode} {operands : List String} (kind : op.operandKind ≠ .inherent)
      (tokens : c.Tokens (op.mnemonic :: operands)) (count : operands.length ≠ 1)
      (unfit : fits operands.length = false)
  /-- It loads from a cell with a numeral of too many digits. -/
  | load {name s : String} {address : Int} {error : Overlong} (fetched : c.fetch = .ok (.load name))
      (bound : c.symbols.address? name = some address)
      (cell : c.memory.read address = .ok (.text s)) (read : Numeral.read s = .error error)
  /-- It stores an accumulator that cannot be written out. -/
  | store {name : String} {address : Int} (fetched : c.fetch = .ok (.store name))
      (bound : c.symbols.address? name = some address)
      (unfit : fits c.registers.accumulator = false)

/-! ### Messages that can be written -/

theorem ofCause_ne_overlong {cause : Cause} {address : Option Int} {error : Overlong}
    (h : ∀ n ∈ address.toList ++ cause.numerals, fits n) :
    Failure.ofCause cause address ≠ .overlong error := by
  rw [Failure.ofCause_of_fits h]
  simp

/-- In memory with a program of text lines the only word that is not text is the empty one. -/
theorem Orderly.eq_zero_of_number (hc : c.Orderly program)
    (htext : ∀ word ∈ program, ∃ s, word = .text s) {address n : Int}
    (h : c.memory.read address = .ok (.number n)) : n = 0 := by
  rcases hc.layout.cells address _ h with hword | ⟨-, -, k, hk⟩
  · unfold loadedWord at hword
    cases hline : program[address.toNat]? with
    | none =>
      rw [hline] at hword
      exact Word.number.inj hword
    | some word =>
      obtain ⟨s, rfl⟩ := htext word (List.mem_of_getElem? hline)
      rw [hline] at hword
      cases hword
  · rw [h] at hk
    cases hk

section Messages

variable (hc : c.Orderly program) (htext : ∀ word ∈ program, ∃ s, word = .text s)
  (hsize : 0 ≤ c.memory.size)

include hc htext hsize

/-- A fetch that needs a numeral that is too long is on the list. -/
theorem overruns_of_fetch {error : Overlong} (h : c.fetch = .error (.overlong error)) :
    c.Overruns := by
  have hpc := hc.counter
  have hmax := hc.fitted.size_le
  have hfetched := c.fetched
  generalize c.fetch = result at h hfetched
  cases hfetched with
  | outside =>
    have hroom : maxIndex.natAbs < Numeral.bound := by decide +kernel
    have habs : (c.memory.size - 1).natAbs ≤ maxIndex.natAbs := by
      rw [maxIndex] at hmax ⊢
      omega
    have hlast := Numeral.fits_of_natAbs_le habs hroom
    refine absurd (Except.error.inj h) (ofCause_ne_overlong ?_)
    simpa [Cause.numerals] using ⟨hpc, hlast⟩
  | notText hread =>
    have hzero := hc.eq_zero_of_number htext hread
    refine absurd (Except.error.inj h) (ofCause_ne_overlong ?_)
    rw [hzero]
    simpa [Cause.numerals, Word.numerals] using
      ⟨hpc, fits_of_le_maxIndex (Int.le_refl 0) (by decide)⟩
  | noToken =>
    refine absurd (Except.error.inj h) (ofCause_ne_overlong ?_)
    simpa [Cause.numerals] using hpc
  | unknown =>
    refine absurd (Except.error.inj h) (ofCause_ne_overlong ?_)
    simpa [Cause.numerals] using hpc
  | decoded htokens hdecoded =>
    cases hdecoded with
    | made => cases h
    | @miscounted hkind hcount =>
      refine .count hkind htokens hcount (Bool.eq_false_iff.2 fun hfits => ?_)
      refine ofCause_ne_overlong ?_ (Except.error.inj h)
      simpa [Cause.numerals] using ⟨hpc, hfits⟩
    | malformed _ _ hbrief =>
      refine absurd (Except.error.inj h) (ofCause_ne_overlong ?_)
      simpa [hbrief] using hpc
    | overlong hop hsingle hread =>
      rw [hsingle] at htokens
      exact .literal (Opcode.exists_pattern_eq_numeric_iff.1 ⟨_, hop⟩) htokens hread

/-- An instruction that needs a numeral that is too long when executed is on the list. -/
theorem overruns_of_execute {i : Instruction} {error : Overlong} (hfetch : c.fetch = .ok i)
    (h : c.execute i = .error (.overlong error)) : c.Overruns := by
  have hmax := hc.fitted.size_le
  have hrefusal := refusal_of_execute h
  generalize hfailure : Failure.overlong error = failure at hrefusal
  cases hrefusal with
  | full =>
    -- the number of data cells handed out is at most that of all cells
    have hlo := hc.layout.sound.dataStart_le
    have hhi := hc.layout.sound.next_le
    have hstart := hc.fitted.dataStart
    have hmemory := hc.fitted.memorySize
    rw [Memory.dataStart] at hstart
    have hcount : fits (c.symbols.next - c.symbols.dataStart) :=
      fits_of_le_maxIndex (by omega) (by omega)
    refine absurd hfailure.symm (ofCause_ne_overlong ?_)
    simpa [Cause.numerals] using hcount
  | loadUnbound => exact absurd hfailure.symm (ofCause_ne_overlong (by simp [Cause.numerals]))
  | storeUnbound => exact absurd hfailure.symm (ofCause_ne_overlong (by simp [Cause.numerals]))
  | @unread name address _ hbound hunread =>
    obtain ⟨word, hword, hnone⟩ := hc.of_unread hbound hunread
    rcases readInteger_of_none hword hnone with hcorrupt | ⟨s, error, rfl, hread, -⟩
    · rw [hcorrupt] at hunread
      rw [← Except.error.inj hunread] at hfailure
      have hwithin := hc.bound_within hbound
      have haddress : fits address := fits_of_le_maxIndex (by omega) (by omega)
      refine absurd hfailure.symm (ofCause_ne_overlong ?_)
      cases word with
      | text s => simpa [Cause.numerals, Word.numerals] using haddress
      | number n =>
        have hzero := hc.eq_zero_of_number htext hword
        rw [hzero] at hnone
        cases hnone
    · exact .load hfetch hbound hword hread
  | unfit hbound hunfit => exact .store hfetch hbound hunfit
  | unwritten hbound _ hunwritten => exact absurd hunwritten (hc.write_bound hbound)

end Messages

/-! ### Attempts that run into a numeral -/

/-- **An instruction on the list is not executed**, for a numeral that is too long. -/
theorem Overruns.attempt (h : c.Overruns) : ∃ error, c.attempt = .error (.overlong error) := by
  cases h with
  | @literal op numeral error hkind htokens hread =>
    obtain ⟨make, hop⟩ := Opcode.exists_pattern_eq_numeric_iff.2 hkind
    refine ⟨error, attempt_of_fetch_error ?_⟩
    rw [fetch_of_tokens_cons htokens, Instruction.ofTokens, op.ofMnemonic?_mnemonic]
    simp only [hop, hread]
  | @count op operands hkind htokens hcount hunfit =>
    refine ⟨.writing, attempt_of_fetch_error ?_⟩
    rw [fetch_of_tokens_cons htokens, Instruction.ofTokens_of_miscounted hkind hcount,
      Failure.ofCause, if_neg]
    simp [Fault.isWritable, Cause.numerals, hunfit]
  | @load name s address error hfetch hbound hcell hread =>
    have hunread := readInteger_of_overlong hcell hread
    have hrefused := execute_eq_error_iff.2 (.unread hbound hunread)
    exact ⟨error, (attempt_of_fetch hfetch).trans hrefused⟩
  | store hfetch hbound hunfit =>
    have hrefused := execute_eq_error_iff.2 (.unfit hbound hunfit)
    exact ⟨.writing, (attempt_of_fetch hfetch).trans hrefused⟩

end Core

namespace Machine

variable {m : Machine}

/-! ### Trace lines -/

/-- A trace line is written if its registers can be. -/
theorem traceLine_of_writable (h : m.registers.Writable) (i : Instruction) :
    ∃ line, m.traceLine i = .ok line := by
  obtain ⟨hpc, ha, hb⟩ := h
  simp only [traceLine, Registers.display, Numeral.write, hpc, ha, hb, ↓reduceIte]
  exact ⟨_, rfl⟩

theorem traceLine_of_not_writable (h : ¬ m.registers.Writable) (i : Instruction) :
    m.traceLine i = .error .writing := by
  simp only [traceLine, Registers.display, Numeral.write]
  -- the first register that is too long fails the line
  by_cases hpc : fits m.registers.programCounter
  · by_cases ha : fits m.registers.accumulator
    · have hb : ¬ fits m.registers.data := fun hb => h ⟨hpc, ha, hb⟩
      rw [if_pos hpc, if_pos ha, if_neg hb]
      rfl
    · rw [if_pos hpc, if_neg ha]
      rfl
  · rw [if_neg hpc]
    rfl

/-- A trace line cannot be written for the accumulator or the data register. -/
theorem traceLine?_eq_error_iff (hpc : fits m.registers.programCounter) (i : Instruction) :
    (∃ error, m.traceLine? i = .error error) ↔
      m.tracing ∧ (fits m.registers.accumulator = false ∨ fits m.registers.data = false) := by
  have hwritable : ¬ m.registers.Writable ↔
      fits m.registers.accumulator = false ∨ fits m.registers.data = false := by
    rw [Registers.Writable, hpc]
    cases fits m.registers.accumulator with
    | false => simp
    | true => simp
  unfold traceLine?
  cases m.tracing with
  | false => simp
  | true =>
    rw [if_pos rfl, ← hwritable]
    by_cases h : m.registers.Writable
    · obtain ⟨line, hline⟩ := traceLine_of_writable h i
      rw [hline]
      simp [h, bind, Except.bind, pure, Except.pure]
    · rw [traceLine_of_not_writable h]
      simp [h, bind, Except.bind]

/-! ### Steps -/

/-- Whether the next step needs a numeral that is too long, for the instruction or for its trace
line. -/
def Overruns (m : Machine) : Prop :=
  m.toCore.Overruns ∨ m.tracing ∧ (∃ i, m.fetch = .ok i) ∧
    (fits m.registers.accumulator = false ∨ fits m.registers.data = false)

/-- A machine that is left to a program of text lines. -/
structure Texted (m : Machine) : Prop where
  orderly : m.Orderly
  text : ∀ word ∈ m.program, ∃ s, word = .text s
  size_nonneg : 0 ≤ m.memory.size

theorem Texted.step (hm : m.Texted) : m.step.machine.Texted := by
  refine ⟨hm.orderly.step, ?_, ?_⟩
  · rw [m.settings_step.2.1]
    exact hm.text
  · rw [size_step]
    exact hm.size_nonneg

theorem Texted.perform (hm : m.Texted) (request : Execution) :
    (m.perform request).machine.Texted :=
  perform_induction (fun _ h => h.step)
    (fun _ h hready => ⟨h.orderly.stop hready, h.text, h.size_nonneg⟩) hm request

theorem texted_load (hm : m.Fitted) {lines : List String}
    (h : (m.load (lines.map .text)).answer = .ok ()) :
    (m.load (lines.map .text)).machine.Texted := by
  have horderly := orderly_load hm h
  obtain ⟨memory, hload, hmachine⟩ := of_load h
  have hlength := length_le_of_load hload
  have hsize := Memory.size_load hload
  rw [hmachine] at horderly ⊢
  refine ⟨horderly, fun word hword => ?_, ?_⟩
  · obtain ⟨s, -, rfl⟩ := List.mem_map.1 hword
    exact ⟨s, rfl⟩
  · show 0 ≤ memory.size
    rw [hsize]
    omega

/-- **A step ends in a numeral that is too long exactly if it needs one.** -/
theorem Texted.exists_answer_step_eq_error_iff (hm : m.Texted)
    (hrunning : m.state.isTerminal = false) :
    (∃ error, m.step.answer = .error error) ↔ m.Overruns := by
  have hcore := hm.orderly.core
  have hline := traceLine?_eq_error_iff hcore.counter
  simp only [answer_step_eq_error_iff hrunning]
  constructor
  · rintro ⟨error, hanswer⟩
    have hcycle := m.cycleOutcome
    generalize m.cycle = report at hanswer hcycle
    cases hcycle with
    | unfetched hfetch =>
      rw [Except.error.inj hanswer] at hfetch
      exact Or.inl (Core.overruns_of_fetch hcore hm.text hm.size_nonneg hfetch)
    | @untraced i _ hfetch htraced =>
      obtain ⟨htracing, hunfit⟩ := (hline i).1 ⟨_, htraced⟩
      exact Or.inr ⟨htracing, ⟨i, hfetch⟩, hunfit⟩
    | refused hfetch _ hrefused =>
      rw [Except.error.inj hanswer] at hrefused
      exact Or.inl (Core.overruns_of_execute hcore hm.text hm.size_nonneg hfetch hrefused)
    | executed => cases hanswer
  · rintro (hoverruns | ⟨htracing, ⟨i, hfetch⟩, hunfit⟩)
    · obtain ⟨error, hattempt⟩ := hoverruns.attempt
      rcases cycle_of_attempt_error hattempt with hcycle | hcycle
      · exact ⟨error, hcycle⟩
      · exact hcycle
    · obtain ⟨error, htraced⟩ := (hline i).2 ⟨htracing, hunfit⟩
      refine ⟨error, ?_⟩
      rw [cycle, hfetch]
      dsimp only
      rw [htraced]

/-! ### Requests -/

/-- A request ends in a numeral that is too long exactly if the first of its steps that does not go
on needs one. -/
theorem Texted.exists_answer_perform_eq_error_iff (hm : m.Texted) (request : Execution) :
    (∃ error, (m.perform request).answer = .error error) ↔ ∃ k < m.demand request,
      (∀ j < k, (m.stepped j).step.answer = .ok .ready) ∧
        (m.stepped k).state.isTerminal = false ∧ (m.stepped k).Overruns := by
  have htexted : ∀ k, (m.stepped k).Texted := fun k =>
    stepped_of_forall_step (fun _ h => h.step) hm k
  constructor
  · rintro ⟨error, herror⟩
    obtain ⟨k, hk, hbefore, hstep⟩ := answer_perform_eq_error_iff.1 herror
    have hrunning : (m.stepped k).state.isTerminal = false := by
      cases hterminal : (m.stepped k).state.isTerminal with
      | false => rfl
      | true =>
        -- a machine that has come to its end answers its state
        rw [Machine.step, hterminal] at hstep
        cases hstep
    refine ⟨k, hk, fun j hj => goesOn_iff.1 (hbefore j hj), hrunning, ?_⟩
    exact ((htexted k).exists_answer_step_eq_error_iff hrunning).1 ⟨error, hstep⟩
  · rintro ⟨k, hk, hbefore, hrunning, hoverruns⟩
    obtain ⟨error, hstep⟩ :=
      ((htexted k).exists_answer_step_eq_error_iff hrunning).2 hoverruns
    refine ⟨error, answer_perform_eq_error_iff.2 ⟨k, hk, ?_, hstep⟩⟩
    intro j hj
    exact goesOn_iff.2 (hbefore j hj)

/-- **A failure is a fault unless a numeral is too long.**  A program of text lines was loaded and
has been stepped and run, with or without a trace.  The next request ends in a numeral that is too
long exactly if the first of its steps that does not go on needs one; it leaves the machine running
then, without a fault.  Any other request answers the state it leaves the machine in, and the
machine has a fault exactly if it has faulted. -/
theorem failure_is_fault_unless_overrun (hm : Reachable m) {lines : List String}
    (hload : (m.load (lines.map .text)).answer = .ok ()) (requests : List Execution)
    (request : Execution) :
    let later := (m.load (lines.map .text)).machine.after requests
    let report := later.perform request
    ((∃ error, report.answer = .error error) ↔ ∃ k < later.demand request,
      (∀ j < k, (later.stepped j).step.answer = .ok .ready) ∧
        (later.stepped k).state.isTerminal = false ∧ (later.stepped k).Overruns) ∧
    (∀ state, report.answer = .ok state → report.machine.state = state ∧
      state ∈ [.ready, .stopped, .halted, .faulted] ∧
        (state = .faulted ↔ ∃ fault, report.machine.fault = some fault)) ∧
    ∀ error, report.answer = .error error →
      report.machine.state = .running ∧ report.machine.fault = none := by
  intro later report
  have hlater : later.Texted :=
    after_of_forall_perform (fun _ request h => h.perform request) (texted_load hm.fitted hload)
      requests
  have hreport : report.machine.Orderly := hlater.orderly.perform request
  have hanswer := later.answer_perform request
  refine ⟨hlater.exists_answer_perform_eq_error_iff request, ?_, ?_⟩
  · intro state hstate
    rcases hanswer with ⟨hok, hmem⟩ | ⟨error, herror, -⟩
    · obtain rfl := Except.ok.inj (hok.symm.trans hstate)
      exact ⟨rfl, hmem, hreport.faulted_iff⟩
    · cases hstate.symm.trans herror
  · intro error herror
    rcases hanswer with ⟨hok, -⟩ | ⟨_, -, hrunning⟩
    · cases herror.symm.trans hok
    · refine ⟨hrunning, hreport.unfaulted ?_⟩
      intro hfaulted
      cases hrunning.symm.trans hfaulted

/-- A machine with one cell. -/
def cramped : Machine := blank 1 Nat.one_pos 1

theorem reachable_cramped : Reachable cramped :=
  .new (show Machine.new 1 1 = .ok cramped from rfl)

/-- A program of one line, which loads a row of digits. -/
def loading (digits : List Char) : List String :=
  [Opcode.ldi.mnemonic ++ " " ++ String.ofList digits]

theorem load_loading (digits : List Char) :
    (cramped.load ((loading digits).map .text)).answer = .ok () := rfl

theorem running_loading (digits : List Char) :
    (cramped.load ((loading digits).map .text)).machine.state.isTerminal = false := rfl

/-- A row of too many digits cannot be loaded. -/
theorem overruns_loading {digits : List Char} (h : ∀ c ∈ digits, c.isDigit)
    (hlong : Numeral.maxDigits < digits.length) :
    (cramped.load ((loading digits).map .text)).machine.Overruns := by
  have hread := Numeral.read_of_length_gt h hlong
  have hwords : Text.words (Opcode.ldi.mnemonic ++ " " ++ String.ofList digits) =
      [Opcode.ldi.mnemonic, String.ofList digits] := by
    refine Opcode.ldi.words_mnemonic_append ?_ fun c hc => ?_
    · rw [String.toList_ofList]
      exact List.ne_nil_of_length_pos (Nat.zero_lt_of_lt hlong)
    · rw [String.toList_ofList] at hc
      exact Text.isBlank_of_isDigit (h c hc)
  exact Or.inl (.literal (Or.inl rfl) ⟨_, rfl, hwords⟩ hread)

/-- Zero, in one digit more than a numeral may have. -/
def longZero : List Char := List.replicate 4301 '0'

theorem overruns_longZero : (cramped.load ((loading longZero).map .text)).machine.Overruns := by
  refine overruns_loading (fun c hc => ?_) ?_
  · rw [List.eq_of_mem_replicate hc]
    rfl
  · rw [longZero, List.length_replicate]
    decide

theorem failure_is_fault_unless_overrun_zero :
    (Reachable cramped ∧ (cramped.load ((loading longZero).map .text)).answer = .ok ()) ∧
    let report := ((cramped.load ((loading longZero).map .text)).machine.after []).perform .step
    (∃ error, report.answer = .error error) ∧ report.machine.state = .running ∧
      report.machine.fault = none := by
  obtain ⟨hoverlong, -, herror⟩ :=
    failure_is_fault_unless_overrun reachable_cramped (load_loading longZero) [] .step
  obtain ⟨error, hanswer⟩ := hoverlong.2
    ⟨0, Nat.one_pos, fun j hj => absurd hj (Nat.not_lt_zero j), running_loading longZero,
      overruns_longZero⟩
  exact ⟨⟨reachable_cramped, load_loading longZero⟩, ⟨error, hanswer⟩, herror error hanswer⟩

/-- **Not every failure is a fault**: the step that loads the long zero answers no state. -/
theorem not_every_failure_is_fault : ¬ ∀ (m : Machine) (lines : List String)
    (requests : List Execution) (request : Execution), Reachable m →
    (m.load (lines.map .text)).answer = .ok () →
    ∃ state, (((m.load (lines.map .text)).machine.after requests).perform request).answer =
      .ok state := by
  intro h
  obtain ⟨state, hstate⟩ :=
    h cramped (loading longZero) [] .step reachable_cramped (load_loading longZero)
  have htexted := texted_load reachable_cramped.fitted (load_loading longZero)
  obtain ⟨error, herror⟩ :=
    (htexted.exists_answer_step_eq_error_iff (running_loading longZero)).2 overruns_longZero
  change (cramped.load ((loading longZero).map .text)).machine.step.answer = .ok state at hstate
  rw [herror] at hstate
  cases hstate

end Machine

end Accumulator
