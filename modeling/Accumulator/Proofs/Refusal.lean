import Accumulator.Proofs.Cycle
import Accumulator.Proofs.Fetching
import Accumulator.Proofs.Instruction

/-!
# Instructions that are refused

An instruction that loads wants an integer in its data cell.  `Word.integer?` is the integer in a
word, and `readInteger_eq_ok_iff` and `readInteger_of_none` say what comes of a word with one and of
a word without.

`Refusal` lists the reasons for which an instruction is not executed, and `execute_eq_error_iff`
says that there are no others.

An `attempt` is a cycle without its trace line: the instruction at the program counter is fetched
and executed.  A cycle that meets a fault does so in its attempt (`attempt_of_cycle_fault`), and a
failing attempt fails the cycle, unless writing the trace line has failed before
(`cycle_of_attempt_error`).
-/

namespace Accumulator

/-! ### Causes -/

theorem Failure.ofCause_of_fits {cause : Cause} {address : Option Int}
    (h : ∀ n ∈ address.toList ++ cause.numerals, Numeral.fits n) :
    ofCause cause address = .fault ⟨cause, address⟩ := by
  rw [ofCause, if_pos]
  rw [Fault.isWritable, List.all_eq_true]
  exact h

theorem Failure.ofCause_of_not_fits {cause : Cause} {address : Option Int}
    (h : ¬ ∀ n ∈ address.toList ++ cause.numerals, Numeral.fits n) :
    ofCause cause address = .overlong .writing := by
  rw [ofCause, if_neg]
  rw [Fault.isWritable, List.all_eq_true]
  exact h

/-- A cause makes a fault with the address it is given, or its message cannot be written. -/
theorem Failure.ofCause_cases (cause : Cause) (address : Option Int) :
    ofCause cause address = .fault ⟨cause, address⟩ ∨
      ofCause cause address = .overlong .writing := by
  unfold ofCause
  split
  · exact Or.inl rfl
  · exact Or.inr rfl

theorem Failure.eq_of_ofCause {cause : Cause} {address : Option Int} {fault : Fault}
    (h : ofCause cause address = .fault fault) : fault = ⟨cause, address⟩ := by
  rcases ofCause_cases cause address with hfault | hoverlong
  · rw [hfault] at h
    exact (Failure.fault.inj h).symm
  · rw [hoverlong] at h
    cases h

/-! ### Data words -/

/-- The integer in a data word: the word of an untouched cell counts as zero, and a text must be a
numeral that is not too long. -/
def Word.integer? : Word → Option Int
  | .number n => if n = 0 then some 0 else none
  | .text s =>
    match Numeral.read s with
    | .ok n? => n?
    | .error _ => none

namespace Core

variable {c : Core}

theorem readInteger_of_some {address n : Int} {word : Word}
    (h : c.memory.read address = .ok word) (hn : word.integer? = some n) :
    c.readInteger address = .ok n := by
  rw [readInteger, h]
  cases word with
  | number k =>
    simp only [Word.integer?] at hn
    split at hn
    · next hzero =>
      rw [← Option.some.inj hn]
      exact if_pos hzero
    · cases hn
  | text s =>
    simp only [Word.integer?] at hn
    split at hn
    · next n? hread =>
      rw [hn] at hread
      simp only [bind, Except.bind, hread]
    · cases hn

theorem readInteger_of_overlong {address : Int} {s : String} {error : Overlong}
    (h : c.memory.read address = .ok (.text s)) (hread : Numeral.read s = .error error) :
    c.readInteger address = .error (.overlong error) := by
  rw [readInteger, h]
  simp only [bind, Except.bind, hread]

/-- A word without an integer cannot be loaded. -/
theorem readInteger_of_none {address : Int} {word : Word} (h : c.memory.read address = .ok word)
    (hnone : word.integer? = none) :
    c.readInteger address = .error (.ofCause (.corruptData word) address) ∨
      ∃ s error, word = .text s ∧ Numeral.read s = .error error ∧
        c.readInteger address = .error (.overlong error) := by
  cases word with
  | number k =>
    simp only [Word.integer?] at hnone
    split at hnone
    · cases hnone
    · next hne =>
      rw [readInteger, h]
      exact Or.inl (if_neg hne)
  | text s =>
    simp only [Word.integer?] at hnone
    split at hnone
    · next n? hread =>
      rw [hnone] at hread
      rw [readInteger, h]
      simp only [bind, Except.bind, hread, true_or]
    · next error hread =>
      exact Or.inr ⟨s, error, rfl, hread, readInteger_of_overlong h hread⟩

/-- What can be loaded is the integer in the word that is read. -/
theorem readInteger_eq_ok_iff {address n : Int} : c.readInteger address = .ok n ↔
    ∃ word, c.memory.read address = .ok word ∧ word.integer? = some n := by
  constructor
  · intro h
    obtain ⟨word, hread, -⟩ := bind_eq_ok h
    refine ⟨word, hread, ?_⟩
    cases hword : word.integer? with
    | none =>
      rcases readInteger_of_none hread hword with hfailed | ⟨_, _, -, -, hfailed⟩
      · rw [h] at hfailed
        cases hfailed
      · rw [h] at hfailed
        cases hfailed
    | some k =>
      rw [readInteger_of_some hread hword] at h
      rw [Except.ok.inj h]
  · rintro ⟨word, hread, hn⟩
    exact readInteger_of_some hread hn

/-! ### Refusals -/

/-- The reasons for which an instruction is not executed. -/
inductive Refusal (c : Core) : Instruction → Failure → Prop
  /-- There is no data cell left for the name. -/
  | full {name : String} (full : c.symbols.memorySize ≤ c.symbols.next) :
      Refusal c (.declare name)
        (.ofCause (.dataMemoryFull name (c.symbols.next - c.symbols.dataStart)))
  /-- The name to be loaded from was not declared. -/
  | loadUnbound {name : String} (unbound : c.symbols.address? name = none) :
      Refusal c (.load name) (.ofCause (.unknownSymbol name))
  /-- The name to be stored in was not declared. -/
  | storeUnbound {name : String} (unbound : c.symbols.address? name = none) :
      Refusal c (.store name) (.ofCause (.unknownSymbol name))
  /-- There is no integer in the cell of the name. -/
  | unread {name : String} {address : Int} {failure : Failure}
      (bound : c.symbols.address? name = some address)
      (unread : c.readInteger address = .error failure) : Refusal c (.load name) failure
  /-- The accumulator is too long to be written out. -/
  | unfit {name : String} {address : Int} (bound : c.symbols.address? name = some address)
      (unfit : Numeral.fits c.registers.accumulator = false) :
      Refusal c (.store name) (.overlong .writing)
  /-- The cell of the name cannot be written to. -/
  | unwritten {name : String} {address : Int} {failure : Failure}
      (bound : c.symbols.address? name = some address)
      (fits : Numeral.fits c.registers.accumulator)
      (unwritten : c.memory.write address (.text (Numeral.decimal c.registers.accumulator)) =
        .error failure) : Refusal c (.store name) failure

theorem bind_eq_error {ε α β : Type} {x : Except ε α} {f : α → Except ε β} {e : ε}
    (h : (x >>= f) = .error e) : x = .error e ∨ ∃ a, x = .ok a ∧ f a = .error e := by
  cases x with
  | error e' =>
    obtain rfl := Except.error.inj h
    exact Or.inl rfl
  | ok a => exact Or.inr ⟨a, rfl, h⟩

theorem resolve_eq_error_iff {t : SymbolTable} {name : String} {failure : Failure} :
    t.resolve name = .error failure ↔
      t.address? name = none ∧ failure = .ofCause (.unknownSymbol name) := by
  unfold SymbolTable.resolve
  cases t.address? name with
  | none => simp [eq_comm]
  | some address => simp

theorem write_mapError_eq_error_iff {n : Int} {failure : Failure} :
    (Numeral.write n).mapError Failure.overlong = .error failure ↔
      Numeral.fits n = false ∧ failure = .overlong .writing := by
  unfold Numeral.write
  split
  · next hfits =>
    rw [hfits]
    constructor
    · intro h
      cases h
    · rintro ⟨h, -⟩
      cases h
  · next hfits =>
    constructor
    · intro h
      exact ⟨Bool.eq_false_iff.2 hfits, (Except.error.inj h).symm⟩
    · rintro ⟨-, rfl⟩
      rfl

/-- An instruction that fails was refused for one of the reasons. -/
theorem refusal_of_execute {i : Instruction} {failure : Failure}
    (h : c.execute i = .error failure) : c.Refusal i failure := by
  cases i with
  | declare name =>
    rcases bind_eq_error h with h | ⟨symbols, -, h⟩
    · unfold SymbolTable.declare at h
      split at h
      · next hfull =>
        obtain rfl := Except.error.inj h
        exact .full hfull
      · cases h
    · cases h
  | load name =>
    rcases bind_eq_error h with h | ⟨address, hresolve, h⟩
    · obtain ⟨hunbound, rfl⟩ := resolve_eq_error_iff.1 h
      exact .loadUnbound hunbound
    · have hbound := SymbolTable.resolve_eq_ok_iff.1 hresolve
      rcases bind_eq_error h with h | ⟨n, -, h⟩
      · exact .unread hbound h
      · cases h
  | store name =>
    rcases bind_eq_error h with h | ⟨address, hresolve, h⟩
    · obtain ⟨hunbound, rfl⟩ := resolve_eq_error_iff.1 h
      exact .storeUnbound hunbound
    · have hbound := SymbolTable.resolve_eq_ok_iff.1 hresolve
      rcases bind_eq_error h with h | ⟨text, htext, h⟩
      · obtain ⟨hunfit, rfl⟩ := write_mapError_eq_error_iff.1 h
        exact .unfit hbound hunfit
      · obtain ⟨hfits, rfl⟩ := write_mapError_eq_ok_iff.1 htext
        rcases bind_eq_error h with h | ⟨memory, -, h⟩
        · exact .unwritten hbound hfits h
        · cases h
  | _ => cases h

/-- **An instruction fails exactly for one of the reasons.** -/
theorem execute_eq_error_iff {i : Instruction} {failure : Failure} :
    c.execute i = .error failure ↔ c.Refusal i failure := by
  refine ⟨refusal_of_execute, fun h => ?_⟩
  cases h with
  | full hfull => rw [execute, SymbolTable.declare, if_pos hfull]; rfl
  | loadUnbound hunbound => rw [execute, resolve_eq_error_iff.2 ⟨hunbound, rfl⟩]; rfl
  | storeUnbound hunbound => rw [execute, resolve_eq_error_iff.2 ⟨hunbound, rfl⟩]; rfl
  | unread hbound hunread =>
    rw [execute, SymbolTable.resolve_eq_ok_iff.2 hbound]
    show (c.readInteger _ >>= _) = _
    rw [hunread]
    rfl
  | unfit hbound hunfit => exact execute_store_of_not_fits hbound hunfit
  | unwritten hbound hfits hunwritten =>
    rw [execute, SymbolTable.resolve_eq_ok_iff.2 hbound, write_mapError_eq_ok_iff.2 ⟨hfits, rfl⟩]
    show (c.memory.write _ _ >>= _) = _
    rw [hunwritten]
    rfl

/-! ### Attempts -/

/-- The instruction at the program counter fetched and executed. -/
def attempt (c : Core) : Except Failure Core := do
  let instruction ← c.fetch
  c.execute instruction

theorem attempt_of_fetch {i : Instruction} (h : c.fetch = .ok i) : c.attempt = c.execute i := by
  rw [attempt, h]
  rfl

theorem attempt_of_fetch_error {failure : Failure} (h : c.fetch = .error failure) :
    c.attempt = .error failure := by
  rw [attempt, h]
  rfl

end Core

namespace Machine

variable {m : Machine}

/-- A cycle that is not kept from it by its trace line makes the attempt. -/
theorem cycle_of_attempt (m : Machine) :
    (∃ error, m.cycle.answer = .error (.overlong error)) ∨
      (∃ failure, m.cycle.answer = .error failure ∧ m.attempt = .error failure) ∨
        ∃ pace, m.cycle.answer = .ok pace ∧ m.attempt = .ok m.cycle.machine.toCore := by
  have hcycle := m.cycleOutcome
  generalize m.cycle = report at hcycle
  cases hcycle with
  | unfetched hfetch => exact Or.inr (Or.inl ⟨_, rfl, Core.attempt_of_fetch_error hfetch⟩)
  | untraced => exact Or.inl ⟨_, rfl⟩
  | refused hfetch _ hexecute =>
    exact Or.inr (Or.inl ⟨_, rfl, (Core.attempt_of_fetch hfetch).trans hexecute⟩)
  | executed hfetch _ hexecute =>
    exact Or.inr (Or.inr ⟨_, rfl, (Core.attempt_of_fetch hfetch).trans hexecute⟩)

/-- A fault that a cycle meets is one that the attempt meets. -/
theorem attempt_of_cycle_fault {fault : Fault} (h : m.cycle.answer = .error (.fault fault)) :
    m.attempt = .error (.fault fault) := by
  rcases m.cycle_of_attempt with ⟨error, hanswer⟩ | ⟨failure, hanswer, hattempt⟩ |
    ⟨pace, hanswer, -⟩
  · rw [h] at hanswer
    cases hanswer
  · rw [h] at hanswer
    rw [hattempt, ← Except.error.inj hanswer]
  · rw [h] at hanswer
    cases hanswer

/-- A failing attempt fails the cycle, but the trace line may fail it before. -/
theorem cycle_of_attempt_error {failure : Failure} (h : m.attempt = .error failure) :
    m.cycle.answer = .error failure ∨ ∃ error, m.cycle.answer = .error (.overlong error) := by
  rcases m.cycle_of_attempt with hoverlong | ⟨other, hanswer, hattempt⟩ | ⟨pace, -, hattempt⟩
  · exact Or.inr hoverlong
  · rw [h] at hattempt
    rw [hanswer, ← Except.error.inj hattempt]
    exact Or.inl rfl
  · rw [h] at hattempt
    cases hattempt

/-! ### Steps that fail -/

/-- A step ends in a fault exactly if its cycle meets it. -/
theorem step_eq_faulted_iff (hm : m.state.isTerminal = false) (fault : Fault) :
    (m.step.answer = .ok .faulted ∧ m.step.machine.state = .faulted ∧
      m.step.machine.fault = some fault) ↔ m.cycle.answer = .error (.fault fault) := by
  rcases step_cases hm with ⟨hcycle, hanswer, -⟩ | ⟨hcycle, hanswer, -⟩ |
    ⟨met, hcycle, hanswer, hmachine⟩ | ⟨error, hcycle, hanswer, -⟩
  all_goals rw [hcycle, hanswer]
  · simp
  · simp
  · rw [hmachine]
    constructor
    · rintro ⟨-, -, h⟩
      rw [Option.some.inj h]
    · intro h
      rw [Failure.fault.inj (Except.error.inj h)]
      exact ⟨rfl, rfl, rfl⟩
  · simp

/-- A step answers the state it leaves the machine in, unless it ends in a numeral that is too
long. -/
theorem answer_step (m : Machine) : m.step.answer = .ok m.step.machine.state ∨
    ∃ error, m.step.answer = .error error ∧ m.step.machine.state = .running := by
  cases hm : m.state.isTerminal with
  | true =>
    rw [step, hm]
    exact Or.inl rfl
  | false =>
    rcases step_cases hm with ⟨-, hanswer, hmachine⟩ | ⟨-, hanswer, hmachine⟩ |
      ⟨fault, -, hanswer, hmachine⟩ | ⟨error, -, hanswer, hmachine⟩
    all_goals rw [hanswer, hmachine]
    · exact Or.inl rfl
    · exact Or.inl rfl
    · exact Or.inl rfl
    · exact Or.inr ⟨error, rfl, rfl⟩

theorem cycle_of_faulted (hm : m.state.isTerminal = false) (h : m.step.answer = .ok .faulted) :
    ∃ fault, m.cycle.answer = .error (.fault fault) := by
  rcases step_cases hm with ⟨-, hanswer, -⟩ | ⟨-, hanswer, -⟩ | ⟨fault, hcycle, -, -⟩ |
    ⟨error, -, hanswer, -⟩
  · rw [h] at hanswer
    cases hanswer
  · rw [h] at hanswer
    cases hanswer
  · exact ⟨fault, hcycle⟩
  · rw [h] at hanswer
    cases hanswer

/-- A step ends in a numeral that is too long exactly if its cycle comes to it. -/
theorem answer_step_eq_error_iff (hm : m.state.isTerminal = false) {error : Overlong} :
    m.step.answer = .error error ↔ m.cycle.answer = .error (.overlong error) := by
  rcases step_cases hm with ⟨hcycle, hanswer, -⟩ | ⟨hcycle, hanswer, -⟩ |
    ⟨met, hcycle, hanswer, -⟩ | ⟨met, hcycle, hanswer, -⟩
  all_goals rw [hcycle, hanswer]
  all_goals simp

end Machine

end Accumulator
