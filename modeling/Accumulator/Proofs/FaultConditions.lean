import Accumulator.Proofs.Programmed

/-!
# Exactly when a program meets a fault

`Core.Meets` lists the faults that an instruction can meet, each with what it takes: where the
program counter is, how the word there is split into tokens, and what the symbol table and the data
cell of a name say.  In a machine that is left to its programs a step ends in a fault exactly if the
next instruction meets it, unless the step ends in a numeral that is too long
(`faults_exactly`).

Accesses to data cells are not on the list: every name has a cell of memory (`bound_within`), so
only the program counter can be out of bounds.
-/

namespace Accumulator

namespace Core

variable {c : Core} {program : List Word}

/-- The faults that the instruction at the program counter can meet: the kind of the fault and the
address it names. -/
inductive Meets (c : Core) : FaultKind → Option Int → Prop
  /-- The program counter is outside memory. -/
  | outside
      (outside : ¬ (0 ≤ c.registers.programCounter ∧ c.registers.programCounter < c.memory.size)) :
      Meets c .outOfBounds none
  /-- The word at the program counter is not text. -/
  | notText {n : Int} (read : c.memory.read c.registers.programCounter = .ok (.number n)) :
      Meets c .invalidOpcode c.registers.programCounter
  /-- The word has no token. -/
  | noToken (tokens : c.Tokens []) : Meets c .invalidOpcode c.registers.programCounter
  /-- The first token is no mnemonic. -/
  | unknown {token : String} {operands : List String} (tokens : c.Tokens (token :: operands))
      (unknown : ∀ op : Opcode, op.mnemonic ≠ token) :
      Meets c .invalidOpcode c.registers.programCounter
  /-- The opcode does not take the operands. -/
  | malformed {op : Opcode} {operands : List String} (tokens : c.Tokens (op.mnemonic :: operands))
      (unfit : ¬ op.Takes operands) : Meets c .malformedOperand c.registers.programCounter
  /-- A name is loaded from or stored in that was not declared. -/
  | unbound {op : Opcode} {name : String} (access : op = .lda ∨ op = .str)
      (tokens : c.Tokens [op.mnemonic, name]) (named : isName name)
      (unbound : c.symbols.address? name = none) : Meets c .unknownSymbol none
  /-- A name is declared when all data cells have been handed out. -/
  | full {name : String} (tokens : c.Tokens [Opcode.dec.mnemonic, name]) (named : isName name)
      (full : c.memory.size ≤ c.symbols.next) : Meets c .addressSpaceExhausted none
  /-- A name is loaded from whose cell holds no integer. -/
  | corrupt {name : String} {address : Int} {word : Word}
      (tokens : c.Tokens [Opcode.lda.mnemonic, name]) (named : isName name)
      (bound : c.symbols.address? name = some address)
      (read : c.memory.read address = .ok word) (corrupt : word.integer? = none) :
      Meets c .corruptData address

/-- A fault met when fetching is on the list. -/
theorem meets_of_fetch {fault : Fault} (h : c.fetch = .error (.fault fault)) :
    c.Meets fault.kind fault.address := by
  have hfetched := c.fetched
  generalize c.fetch = result at h hfetched
  cases hfetched with
  | outside houtside =>
    obtain rfl := Failure.eq_of_ofCause (Except.error.inj h)
    exact .outside houtside
  | notText hword =>
    obtain rfl := Failure.eq_of_ofCause (Except.error.inj h)
    exact .notText hword
  | noToken htokens =>
    obtain rfl := Failure.eq_of_ofCause (Except.error.inj h)
    exact .noToken htokens
  | unknown htokens hunknown =>
    obtain rfl := Failure.eq_of_ofCause (Except.error.inj h)
    exact .unknown htokens hunknown
  | decoded htokens hdecoded =>
    cases hdecoded with
    | made => cases h
    | miscounted hkind hcount =>
      obtain rfl := Failure.eq_of_ofCause (Except.error.inj h)
      exact .malformed htokens (not_takes_of_length_ne_one hkind hcount)
    | malformed hunfit hkind _ =>
      obtain rfl := Failure.eq_of_ofCause (Except.error.inj h)
      rw [Fault.kind, hkind]
      exact .malformed htokens hunfit
    | overlong => cases Except.error.inj h

/-- A fault met when executing what was fetched is on the list. -/
theorem Orderly.meets_of_execute (hc : c.Orderly program) {i : Instruction} {fault : Fault}
    (hfetch : c.fetch = .ok i) (h : c.execute i = .error (.fault fault)) :
    c.Meets fault.kind fault.address := by
  obtain ⟨op, operands, htokens, hmakes⟩ := makes_of_fetch hfetch
  have hform := hmakes.form
  have hrefusal := refusal_of_execute h
  generalize hfailure : Failure.fault fault = failure at hrefusal
  cases hrefusal with
  | full hfull =>
    obtain ⟨rfl, rfl, hname⟩ := hform
    obtain rfl := Failure.eq_of_ofCause hfailure.symm
    rw [hc.fitted.memorySize] at hfull
    exact .full htokens hname hfull
  | loadUnbound hunbound =>
    obtain ⟨rfl, rfl, hname⟩ := hform
    obtain rfl := Failure.eq_of_ofCause hfailure.symm
    exact .unbound (Or.inl rfl) htokens hname hunbound
  | storeUnbound hunbound =>
    obtain ⟨rfl, rfl, hname⟩ := hform
    obtain rfl := Failure.eq_of_ofCause hfailure.symm
    exact .unbound (Or.inr rfl) htokens hname hunbound
  | unread hbound hunread =>
    obtain ⟨rfl, rfl, hname⟩ := hform
    -- the cell of a name can be read, so it is the word in it that cannot be loaded
    obtain ⟨word, hword, hnone⟩ := hc.of_unread hbound hunread
    rcases readInteger_of_none hword hnone with hcorrupt | ⟨_, _, -, -, hoverlong⟩
    · rw [hcorrupt] at hunread
      rw [← Except.error.inj hunread] at hfailure
      obtain rfl := Failure.eq_of_ofCause hfailure.symm
      exact .corrupt htokens hname hbound hword hnone
    · rw [hoverlong] at hunread
      rw [← Except.error.inj hunread] at hfailure
      cases hfailure
  | unfit => cases hfailure
  | unwritten hbound _ hunwritten =>
    exact absurd hunwritten (hc.write_bound hbound)

/-- **Every fault that an attempt meets is on the list.** -/
theorem Orderly.meets_of_attempt (hc : c.Orderly program) {fault : Fault}
    (h : c.attempt = .error (.fault fault)) : c.Meets fault.kind fault.address := by
  rcases bind_eq_error h with hfetch | ⟨i, hfetch, hexecute⟩
  · exact meets_of_fetch hfetch
  · exact hc.meets_of_execute hfetch hexecute

/-- An attempt that fails for a cause meets its fault, or cannot write the message. -/
theorem meets_or_overlong {cause : Cause} {address : Option Int}
    (h : c.attempt = .error (.ofCause cause address)) :
    (∃ fault, c.attempt = .error (.fault fault) ∧ fault.kind = cause.kind ∧
        fault.address = address) ∨
      ∃ error, c.attempt = .error (.overlong error) := by
  rcases Failure.ofCause_cases cause address with hfault | hoverlong
  · rw [hfault] at h
    exact Or.inl ⟨_, h, rfl, rfl⟩
  · rw [hoverlong] at h
    exact Or.inr ⟨_, h⟩

/-- **Every fault on the list is met**, unless the attempt comes to a numeral that is too long. -/
theorem Orderly.attempt_of_meets (hc : c.Orderly program) {kind : FaultKind}
    {address : Option Int} (h : c.Meets kind address) :
    (∃ fault, c.attempt = .error (.fault fault) ∧ fault.kind = kind ∧
        fault.address = address) ∨
      ∃ error, c.attempt = .error (.overlong error) := by
  cases h with
  | outside houtside =>
    exact meets_or_overlong (attempt_of_fetch_error (fetch_of_outside houtside))
  | notText hread => exact meets_or_overlong (attempt_of_fetch_error (fetch_of_number hread))
  | noToken htokens =>
    exact meets_or_overlong (attempt_of_fetch_error (fetch_of_tokens_nil htokens))
  | unknown htokens hunknown =>
    exact meets_or_overlong (attempt_of_fetch_error (fetch_of_unknown htokens hunknown))
  | @malformed op operands htokens hunfit =>
    have hdecoded := decoded_ofTokens c.registers.programCounter op operands
    rw [← fetch_of_tokens_cons htokens] at hdecoded
    generalize hresult : c.fetch = result at hdecoded
    cases hdecoded with
    | made hmakes => exact absurd (Opcode.takes_iff_exists_makes.2 ⟨_, hmakes⟩) hunfit
    | miscounted => exact meets_or_overlong (attempt_of_fetch_error hresult)
    | malformed _ hkind =>
      rw [← hkind]
      exact meets_or_overlong (attempt_of_fetch_error hresult)
    | overlong => exact Or.inr ⟨_, attempt_of_fetch_error hresult⟩
  | @unbound op name haccess htokens hname hunbound =>
    rcases haccess with rfl | rfl
    · have hfetch : c.fetch = .ok (.load name) := fetch_of_makes htokens (.symbolic rfl hname)
      have hrefused := execute_eq_error_iff.2 (.loadUnbound hunbound)
      exact meets_or_overlong ((attempt_of_fetch hfetch).trans hrefused)
    · have hfetch : c.fetch = .ok (.store name) := fetch_of_makes htokens (.symbolic rfl hname)
      have hrefused := execute_eq_error_iff.2 (.storeUnbound hunbound)
      exact meets_or_overlong ((attempt_of_fetch hfetch).trans hrefused)
  | @full name htokens hname hfull =>
    have hfetch : c.fetch = .ok (.declare name) := fetch_of_makes htokens (.symbolic rfl hname)
    rw [← hc.fitted.memorySize] at hfull
    have hrefused : c.execute (.declare name) = _ := execute_eq_error_iff.2 (.full hfull)
    exact meets_or_overlong ((attempt_of_fetch hfetch).trans hrefused)
  | @corrupt name address word htokens hname hbound hread hcorrupt =>
    have hfetch : c.fetch = .ok (.load name) := fetch_of_makes htokens (.symbolic rfl hname)
    rcases readInteger_of_none hread hcorrupt with hfailed | ⟨_, error, -, -, hfailed⟩
    · have hrefused := execute_eq_error_iff.2 (.unread hbound hfailed)
      exact meets_or_overlong ((attempt_of_fetch hfetch).trans hrefused)
    · have hrefused := execute_eq_error_iff.2 (.unread hbound hfailed)
      exact Or.inr ⟨error, (attempt_of_fetch hfetch).trans hrefused⟩

end Core

namespace Machine

variable {m : Machine}

/-- A step that does not end in a numeral that is too long meets the fault that its attempt does. -/
theorem cycle_eq_fault_iff (hm : m.state.isTerminal = false)
    (hwritten : ∀ error, m.step.answer ≠ .error error) (fault : Fault) :
    m.cycle.answer = .error (.fault fault) ↔ m.attempt = .error (.fault fault) := by
  refine ⟨attempt_of_cycle_fault, fun h => ?_⟩
  rcases cycle_of_attempt_error h with hfault | ⟨error, hoverlong⟩
  · exact hfault
  · exact absurd ((answer_step_eq_error_iff hm).2 hoverlong) (hwritten error)

/-- **Exactly when a step ends in a fault.**  The machine was left to its programs and has not come
to its end.  Unless its next step ends in a numeral that is too long, the step ends in a fault of a
kind and with an address exactly if that fault is on the list of `Core.Meets`, and in no other
case.  The names have cells of data memory, so none of these faults comes from an access to one. -/
theorem faults_exactly (hm : Programmed m) (hrunning : m.state.isTerminal = false)
    (hwritten : ∀ error, m.step.answer ≠ .error error) :
    (m.step.answer = .ok .faulted ↔ ∃ kind address, m.Meets kind address) ∧
    (∀ kind address, m.Meets kind address ↔ ∃ fault : Fault,
      fault.kind = kind ∧ fault.address = address ∧ m.step.answer = .ok .faulted ∧
        m.step.machine.state = .faulted ∧ m.step.machine.fault = some fault) ∧
    ∀ name address, m.symbols.address? name = some address →
      128 ≤ address ∧ address < m.memory.size := by
  have hcore := hm.orderly.core
  have hexactly : ∀ kind address, m.Meets kind address ↔ ∃ fault : Fault,
      fault.kind = kind ∧ fault.address = address ∧ m.step.answer = .ok .faulted ∧
        m.step.machine.state = .faulted ∧ m.step.machine.fault = some fault := by
    intro kind address
    constructor
    · intro hmeets
      rcases hcore.attempt_of_meets hmeets with ⟨fault, hattempt, hkind, haddress⟩ |
        ⟨error, hattempt⟩
      · have hcycle := (cycle_eq_fault_iff hrunning hwritten fault).2 hattempt
        exact ⟨fault, hkind, haddress, (step_eq_faulted_iff hrunning fault).2 hcycle⟩
      · rcases cycle_of_attempt_error hattempt with hcycle | ⟨error, hcycle⟩
        · exact absurd ((answer_step_eq_error_iff hrunning).2 hcycle) (hwritten _)
        · exact absurd ((answer_step_eq_error_iff hrunning).2 hcycle) (hwritten _)
    · rintro ⟨fault, rfl, rfl, hstep⟩
      have hcycle := (step_eq_faulted_iff hrunning fault).1 hstep
      exact hcore.meets_of_attempt (attempt_of_cycle_fault hcycle)
  refine ⟨⟨fun hanswer => ?_, fun ⟨kind, address, hmeets⟩ => ?_⟩, hexactly,
    fun name address hbound => hcore.bound_within hbound⟩
  · obtain ⟨fault, hcycle⟩ := cycle_of_faulted hrunning hanswer
    exact ⟨_, _, hcore.meets_of_attempt (attempt_of_cycle_fault hcycle)⟩
  · obtain ⟨fault, -, -, hanswer, -⟩ := (hexactly kind address).1 hmeets
    exact hanswer

/-- A program whose last line lies in the first data cell and is no integer. -/
def overlapping : List Word :=
  [.text "DEC X", .text "LDA X"] ++ List.replicate 126 (.text "") ++ [.text "HLT"]

/-- A machine about to load from that cell. -/
def misled : Machine := ((blank 1 Nat.one_pos 129).load overlapping).machine.step.machine

theorem faults_exactly_misled :
    (Programmed misled ∧ misled.state.isTerminal = false ∧
      ∀ error, misled.step.answer ≠ .error error) ∧
    ∃ fault : Fault, fault.kind = .corruptData ∧ fault.address = some 128 ∧
      misled.step.answer = .ok .faulted ∧ misled.step.machine.state = .faulted ∧
        misled.step.machine.fault = some fault := by
  have hnew : Machine.new 1 129 = .ok (blank 1 Nat.one_pos 129) := rfl
  have hm : Programmed misled := .perform (.load (.new hnew) _) .step
  have hrunning : misled.state.isTerminal = false := by decide +kernel
  have hfaulted : misled.step.machine.state = .faulted := by decide +kernel
  have hwritten : ∀ error, misled.step.answer ≠ .error error := by
    intro error herror
    rcases misled.answer_step with hanswer | ⟨_, -, hstate⟩
    · rw [herror] at hanswer
      cases hanswer
    · rw [hfaulted] at hstate
      cases hstate
  have hmeets : misled.Meets .corruptData (some 128) :=
    .corrupt ⟨"LDA X", Memory.read_eq_cells.2 (by decide +kernel), by decide +kernel⟩
      (by decide +kernel) (show misled.symbols.address? "X" = some 128 by decide +kernel)
      (show misled.memory.read 128 = .ok (.text "HLT") from
        Memory.read_eq_cells.2 (by decide +kernel))
      (by decide +kernel)
  obtain ⟨-, hexactly, -⟩ := faults_exactly hm hrunning hwritten
  exact ⟨⟨hm, hrunning, hwritten⟩, (hexactly _ _).1 hmeets⟩

end Machine

end Accumulator
