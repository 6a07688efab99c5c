import Accumulator.Machine.Cycle
import Accumulator.Memory.Lemmas
import Accumulator.Proofs.Decoding

/-!
# What is fetched

A word is split into tokens, of which the first must be a mnemonic and the others operands that its
opcode takes.  `Opcode.Takes` says which operands these are, `Opcode.Makes` which instruction comes
of them, and `Decoded` lists what else can come of an opcode and what stands behind it.

`fetched` carries this over to the word at the program counter: there is no such word, it has no
opcode in front, or it is decoded.
-/

namespace Accumulator

open Text

/-! ### Operands -/

namespace Opcode

variable {op : Opcode} {operands : List String}

/-- Whether an opcode takes these operands: nothing, one name or one numeral. -/
def Takes (op : Opcode) (operands : List String) : Prop :=
  match op.operandKind with
  | .inherent => operands = []
  | .symbol => ∃ name, operands = [name] ∧ isName name
  | .immediate | .address => ∃ numeral n, operands = [numeral] ∧ Numeral.read numeral = .ok (some n)

/-- The instruction that an opcode makes of its operands. -/
inductive Makes (op : Opcode) : List String → Instruction → Prop
  | inherent {i : Instruction} (pattern : op.pattern = .inherent i) : Makes op [] i
  | symbolic {make : String → Instruction} {name : String} (pattern : op.pattern = .symbolic make)
      (named : isName name) : Makes op [name] (make name)
  | numeric {make : Int → Instruction} {numeral : String} {n : Int}
      (pattern : op.pattern = .numeric make) (read : Numeral.read numeral = .ok (some n)) :
      Makes op [numeral] (make n)

/-- What the pattern of an opcode says of the operands it takes. -/
theorem takes_iff : op.Takes operands ↔
    match op.pattern with
    | .inherent _ => operands = []
    | .symbolic _ => ∃ name, operands = [name] ∧ isName name
    | .numeric _ => ∃ numeral n, operands = [numeral] ∧ Numeral.read numeral = .ok (some n) := by
  cases op <;> exact Iff.rfl

/-- An opcode makes an instruction of the operands it takes, and of no others. -/
theorem takes_iff_exists_makes : op.Takes operands ↔ ∃ i, op.Makes operands i := by
  rw [takes_iff]
  constructor
  · intro h
    cases hop : op.pattern with
    | inherent i =>
      rw [hop] at h
      exact ⟨i, h ▸ .inherent hop⟩
    | symbolic make =>
      rw [hop] at h
      obtain ⟨name, rfl, hname⟩ := h
      exact ⟨make name, .symbolic hop hname⟩
    | numeric make =>
      rw [hop] at h
      obtain ⟨numeral, n, rfl, hn⟩ := h
      exact ⟨make n, .numeric hop hn⟩
  · rintro ⟨i, hmakes⟩
    cases hmakes with
    | inherent hop => rw [hop]
    | symbolic hop hname =>
      rw [hop]
      exact ⟨_, rfl, hname⟩
    | numeric hop hn =>
      rw [hop]
      exact ⟨_, _, rfl, hn⟩

/-- What an instruction says of the opcode and the operands that make it. -/
theorem Makes.form {i : Instruction} (h : op.Makes operands i) : op = i.form.opcode ∧
    match i.form.operand with
    | none => operands = []
    | some (.symbol name) => operands = [name] ∧ isName name
    | some (.integer n) =>
      ∃ numeral, operands = [numeral] ∧ Numeral.read numeral = .ok (some n) := by
  cases h with
  | inherent hop => cases op <;> cases hop <;> exact ⟨rfl, rfl⟩
  | symbolic hop hname => cases op <;> cases hop <;> exact ⟨rfl, rfl, hname⟩
  | numeric hop hread => cases op <;> cases hop <;> exact ⟨rfl, _, rfl, hread⟩

/-- An opcode with a pattern for an operand is not one that stands alone. -/
theorem operandKind_ne_inherent (op : Opcode) (h : ∀ i, op.pattern ≠ .inherent i) :
    op.operandKind ≠ .inherent := by
  intro hkind
  cases op <;> cases hkind <;> exact h _ rfl

/-- A token that no opcode has is no mnemonic. -/
theorem ofMnemonic?_eq_none {token : String} (h : ∀ op : Opcode, op.mnemonic ≠ token) :
    ofMnemonic? token = none := by
  rw [ofMnemonic?, List.find?_eq_none]
  intro op _
  rw [beq_iff_eq]
  exact h op

end Opcode

theorem Instruction.ofTokens_of_miscounted {address : Option Int} {op : Opcode}
    {operands : List String} (hkind : op.operandKind ≠ .inherent) (hcount : operands.length ≠ 1) :
    ofTokens address op.mnemonic operands =
      .error (.ofCause (.operandCount op operands.length) address) := by
  unfold ofTokens
  rw [op.ofMnemonic?_mnemonic]
  rcases operands with _ | ⟨operand, _ | ⟨second, operands⟩⟩
  · cases op <;> first | rfl | exact absurd rfl hkind
  · exact absurd rfl hcount
  · cases op <;> first | rfl | exact absurd rfl hkind

/-- What an opcode and what stands behind it are decoded to. -/
inductive Decoded (address : Option Int) (op : Opcode) (operands : List String) :
    Except Failure Instruction → Prop
  /-- The operands make an instruction. -/
  | made {i : Instruction} (makes : op.Makes operands i) : Decoded address op operands (.ok i)
  /-- There is not one operand where one is wanted. -/
  | miscounted (kind : op.operandKind ≠ .inherent) (count : operands.length ≠ 1) :
      Decoded address op operands (.error (.ofCause (.operandCount op operands.length) address))
  /-- The operands are not of the right sort. -/
  | malformed {cause : Cause} (unfit : ¬ op.Takes operands) (kind : cause.kind = .malformedOperand)
      (brief : cause.numerals = []) :
      Decoded address op operands (.error (.ofCause cause address))
  /-- The operand is a numeral that is too long. -/
  | overlong {make : Int → Instruction} {numeral : String} {error : Overlong}
      (pattern : op.pattern = .numeric make) (single : operands = [numeral])
      (read : Numeral.read numeral = .error error) :
      Decoded address op operands (.error (.overlong error))

theorem not_takes_of_length_ne_one {op : Opcode} {operands : List String}
    (hkind : op.operandKind ≠ .inherent) (hcount : operands.length ≠ 1) : ¬ op.Takes operands := by
  intro htakes
  unfold Opcode.Takes at htakes
  split at htakes
  · next h => exact hkind h
  · obtain ⟨name, rfl, -⟩ := htakes
    exact hcount rfl
  · obtain ⟨numeral, n, rfl, -⟩ := htakes
    exact hcount rfl
  · obtain ⟨numeral, n, rfl, -⟩ := htakes
    exact hcount rfl

/-- Whatever stands behind an opcode is decoded to one of these. -/
theorem decoded_ofTokens (address : Option Int) (op : Opcode) (operands : List String) :
    Decoded address op operands (Instruction.ofTokens address op.mnemonic operands) := by
  have htakes := @Opcode.takes_iff op operands
  unfold Instruction.ofTokens
  rw [op.ofMnemonic?_mnemonic]
  dsimp only
  cases hop : op.pattern with
  | inherent i =>
    rw [hop] at htakes
    cases operands with
    | nil => exact .made (.inherent hop)
    | cons operand operands =>
      refine .malformed (fun h => ?_) rfl rfl
      cases htakes.1 h
  | symbolic make =>
    have hkind := op.operandKind_ne_inherent (by simp [hop])
    rw [hop] at htakes
    rcases operands with _ | ⟨operand, _ | ⟨second, operands⟩⟩
    · exact .miscounted hkind (by simp)
    · dsimp only
      split
      · next hname => exact .made (.symbolic hop hname)
      · next hname =>
        refine .malformed (fun h => ?_) rfl rfl
        obtain ⟨name, heq, h⟩ := htakes.1 h
        exact hname (List.singleton_inj.1 heq ▸ h)
    · exact .miscounted hkind (by simp)
  | numeric make =>
    have hkind := op.operandKind_ne_inherent (by simp [hop])
    rw [hop] at htakes
    rcases operands with _ | ⟨operand, _ | ⟨second, operands⟩⟩
    · exact .miscounted hkind (by simp)
    · dsimp only
      split
      · next error hread => exact .overlong hop rfl hread
      · next hread =>
        refine .malformed (fun h => ?_) rfl rfl
        obtain ⟨numeral, n, heq, h⟩ := htakes.1 h
        rw [← List.singleton_inj.1 heq, hread] at h
        cases h
      · next n hread => exact .made (.numeric hop hread)
    · exact .miscounted hkind (by simp)

/-! ### The word at the program counter -/

namespace Core

variable {c : Core}

/-- Whether the word at the program counter is a text of these tokens. -/
def Tokens (c : Core) (tokens : List String) : Prop :=
  ∃ s, c.memory.read c.registers.programCounter = .ok (.text s) ∧ words s = tokens

theorem fetch_of_outside
    (h : ¬ (0 ≤ c.registers.programCounter ∧ c.registers.programCounter < c.memory.size)) :
    c.fetch = .error
      (.ofCause (.outsideMemory c.registers.programCounter c.memory.size)) := by
  rw [fetch, Memory.read, dif_neg h]
  rfl

theorem fetch_of_number {n : Int}
    (h : c.memory.read c.registers.programCounter = .ok (.number n)) :
    c.fetch = .error (.ofCause (.notText (.number n)) c.registers.programCounter) := by
  rw [fetch, h]
  rfl

theorem fetch_of_tokens_nil (h : c.Tokens []) :
    c.fetch = .error (.ofCause .emptyInstruction c.registers.programCounter) := by
  obtain ⟨s, hread, hwords⟩ := h
  rw [fetch, hread]
  show Instruction.decode (.text s) _ = _
  simp only [Instruction.decode, hwords]

theorem fetch_of_tokens_cons {token : String} {operands : List String}
    (h : c.Tokens (token :: operands)) :
    c.fetch = Instruction.ofTokens c.registers.programCounter token operands := by
  obtain ⟨s, hread, hwords⟩ := h
  rw [fetch, hread]
  show Instruction.decode (.text s) _ = _
  simp only [Instruction.decode, hwords]

theorem fetch_of_unknown {token : String} {operands : List String}
    (h : c.Tokens (token :: operands)) (hunknown : ∀ op : Opcode, op.mnemonic ≠ token) :
    c.fetch = .error (.ofCause (.unknownOpcode token) c.registers.programCounter) := by
  rw [fetch_of_tokens_cons h, Instruction.ofTokens, Opcode.ofMnemonic?_eq_none hunknown]

theorem fetch_of_makes {op : Opcode} {operands : List String} {i : Instruction}
    (h : c.Tokens (op.mnemonic :: operands)) (hmakes : op.Makes operands i) : c.fetch = .ok i := by
  rw [fetch_of_tokens_cons h, Instruction.ofTokens, op.ofMnemonic?_mnemonic]
  cases hmakes with
  | inherent hop => simp only [hop]
  | symbolic hop hname => simp only [hop, hname, if_true]
  | numeric hop hread => simp only [hop, hread]

/-- The text of a well-formed instruction is fetched as that instruction. -/
theorem fetch_of_text {i : Instruction} (hi : i.WellFormed)
    (h : c.memory.read c.registers.programCounter = .ok (.text i.text)) : c.fetch = .ok i := by
  rw [fetch, h]
  exact Instruction.decode_text hi _

/-- What comes of fetching. -/
inductive Fetched (c : Core) : Except Failure Instruction → Prop
  /-- There is no cell at the program counter. -/
  | outside
      (outside : ¬ (0 ≤ c.registers.programCounter ∧ c.registers.programCounter < c.memory.size)) :
      Fetched c
        (.error (.ofCause (.outsideMemory c.registers.programCounter c.memory.size)))
  /-- The cell holds no text. -/
  | notText {n : Int} (word : c.memory.read c.registers.programCounter = .ok (.number n)) :
      Fetched c (.error (.ofCause (.notText (.number n)) c.registers.programCounter))
  /-- The text is blank. -/
  | noToken (tokens : c.Tokens []) :
      Fetched c (.error (.ofCause .emptyInstruction c.registers.programCounter))
  /-- The text does not begin with a mnemonic. -/
  | unknown {token : String} {operands : List String} (tokens : c.Tokens (token :: operands))
      (unknown : ∀ op : Opcode, op.mnemonic ≠ token) :
      Fetched c (.error (.ofCause (.unknownOpcode token) c.registers.programCounter))
  /-- The text begins with a mnemonic. -/
  | decoded {op : Opcode} {operands : List String} {result : Except Failure Instruction}
      (tokens : c.Tokens (op.mnemonic :: operands))
      (decoded : Decoded c.registers.programCounter op operands result) : Fetched c result

/-- Every fetch comes to one of these. -/
theorem fetched (c : Core) : c.Fetched c.fetch := by
  by_cases hwithin : 0 ≤ c.registers.programCounter ∧ c.registers.programCounter < c.memory.size
  · obtain ⟨word, hread⟩ := Memory.exists_read_eq_ok_iff.2 hwithin
    cases word with
    | number n =>
      rw [fetch_of_number hread]
      exact .notText hread
    | text s =>
      cases hwords : words s with
      | nil =>
        rw [fetch_of_tokens_nil ⟨s, hread, hwords⟩]
        exact .noToken ⟨s, hread, hwords⟩
      | cons token operands =>
        have htokens : c.Tokens (token :: operands) := ⟨s, hread, hwords⟩
        by_cases hknown : ∃ op : Opcode, op.mnemonic = token
        · obtain ⟨op, rfl⟩ := hknown
          rw [fetch_of_tokens_cons htokens]
          exact .decoded htokens (decoded_ofTokens _ op operands)
        · have hunknown : ∀ op : Opcode, op.mnemonic ≠ token := fun op h => hknown ⟨op, h⟩
          rw [fetch_of_unknown htokens hunknown]
          exact .unknown htokens hunknown
  · rw [fetch_of_outside hwithin]
    exact .outside hwithin

/-- An instruction that is fetched was made by an opcode and its operands. -/
theorem makes_of_fetch {i : Instruction} (h : c.fetch = .ok i) :
    ∃ op operands, c.Tokens (op.mnemonic :: operands) ∧ Opcode.Makes op operands i := by
  have hfetched := c.fetched
  rw [h] at hfetched
  cases hfetched with
  | decoded htokens hdecoded =>
    cases hdecoded with
    | made hmakes => exact ⟨_, _, htokens, hmakes⟩

end Core

end Accumulator
