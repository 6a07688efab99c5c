import Accumulator.Instruction.Decode
import Accumulator.Proofs.Numeral

/-!
# Decoding

What the decoder accepts is the text of a well-formed instruction or something read alike:
`wellFormed_of_decode` says that every decoded instruction is well formed, and `decode_text` that
the text of every well-formed instruction is decoded as that instruction.

The decimal text of an integer begins no instruction (`decode_decimal`), so a stored integer is
never executed.
-/

namespace Accumulator

open Text

/-! ### Names and mnemonics as words -/

theorem isBlank_of_isNameRest {c : Char} (h : isNameRest c) : isBlank c = false := by
  simp only [isNameRest, isNameStart, Bool.or_eq_true, beq_iff_eq] at h
  rcases h with (h | rfl) | h
  · have hbounds : 65 ≤ c.toNat ∧ c.toNat ≤ 122 := by
      rcases Bool.or_eq_true_iff.1 (show (c.isUpper || c.isLower) = true from h) with h | h
      · obtain ⟨hlo, hhi⟩ := of_decide_eq_true h
        have hlo : 65 ≤ c.toNat := UInt32.le_iff_toNat_le.1 hlo
        have hhi : c.toNat ≤ 90 := UInt32.le_iff_toNat_le.1 hhi
        omega
      · obtain ⟨hlo, hhi⟩ := Bool.and_eq_true_iff.1 h
        have hlo : 97 ≤ c.toNat := UInt32.le_iff_toNat_le.1 (of_decide_eq_true hlo)
        have hhi : c.toNat ≤ 122 := UInt32.le_iff_toNat_le.1 (of_decide_eq_true hhi)
        omega
    simp only [isBlank, Bool.or_eq_false_iff, Bool.and_eq_false_iff, decide_eq_false_iff_not,
      beq_eq_false_iff_ne]
    omega
  · decide
  · exact isBlank_of_isDigit h

/-- The characters of a name. -/
theorem isNameRest_of_mem {name : String} (h : isName name) : ∀ c ∈ name.toList, isNameRest c := by
  unfold isName at h
  split at h
  · cases h
  · next first rest heq =>
    rw [Bool.and_eq_true, List.all_eq_true] at h
    rw [heq, List.forall_mem_cons]
    exact ⟨by simp [isNameRest, h.1], h.2⟩

/-- A name is not empty and holds no blanks. -/
theorem isName_toList {s : String} (h : isName s) :
    s.toList ≠ [] ∧ ∀ c ∈ s.toList, isBlank c = false := by
  unfold isName at h
  split at h
  · cases h
  · next c cs heq =>
    rw [Bool.and_eq_true, List.all_eq_true] at h
    rw [heq]
    refine ⟨by simp, fun d hd => ?_⟩
    rcases List.mem_cons.1 hd with rfl | hd
    · exact isBlank_of_isNameRest (by simp [isNameRest, h.1])
    · exact isBlank_of_isNameRest (h.2 d hd)

namespace Opcode

theorem isName_mnemonic (op : Opcode) : isName op.mnemonic := by
  cases op <;> decide

theorem ofMnemonic?_mnemonic (op : Opcode) : ofMnemonic? op.mnemonic = some op := by
  cases op <;> rfl

/-- No mnemonic is the decimal text of an integer. -/
theorem mnemonic_ne_decimal (op : Opcode) (n : Int) : op.mnemonic ≠ Numeral.decimal n := by
  intro heq
  -- a mnemonic holds letters only, and a decimal text ends in a digit
  have hletters : op.mnemonic.toList.all (fun c => !c.isDigit) = true := by
    cases op <;> rfl
  obtain ⟨c, hc⟩ := List.exists_mem_of_ne_nil (Nat.toDigits 10 n.natAbs) Nat.toDigits_ne_nil
  have hmem : c ∈ op.mnemonic.toList := by
    rw [heq, Numeral.toList_decimal]
    exact List.mem_append_right _ hc
  have hletter := List.all_eq_true.1 hletters c hmem
  rw [Numeral.isDigit_of_mem_toDigits hc] at hletter
  cases hletter

theorem ofMnemonic?_decimal (n : Int) : ofMnemonic? (Numeral.decimal n) = none := by
  rw [ofMnemonic?, List.find?_eq_none]
  intro op _
  rw [beq_iff_eq]
  exact op.mnemonic_ne_decimal n

end Opcode

namespace Instruction

/-- **No stored integer is an instruction**: its decimal text is refused for its first token. -/
theorem decode_decimal (n : Int) (address : Option Int) :
    decode (.text (Numeral.decimal n)) address =
      .error (.ofCause (.unknownOpcode (Numeral.decimal n)) address) := by
  simp only [decode, Numeral.words_decimal]
  simp only [ofTokens, Opcode.ofMnemonic?_decimal]

end Instruction

/-! ### Well-formed instructions -/

namespace Operand

/-- An operand that can stand in an instruction: a name, or an integer whose numeral fits. -/
def WellFormed : Operand → Prop
  | symbol name => isName name
  | integer n => Numeral.fits n

/-- The text of a well-formed operand is not empty and holds no blanks. -/
theorem WellFormed.toList_text {operand : Operand} (h : operand.WellFormed) :
    operand.text.toList ≠ [] ∧ ∀ c ∈ operand.text.toList, isBlank c = false := by
  cases operand with
  | symbol name => exact isName_toList h
  | integer n =>
    exact ⟨Numeral.toList_decimal_ne_nil n, fun c => Numeral.isBlank_of_mem_decimal⟩

end Operand

theorem Opcode.words_mnemonic (op : Opcode) : words op.mnemonic = [op.mnemonic] := by
  obtain ⟨hne, hblank⟩ := isName_toList op.isName_mnemonic
  rw [words, runs_eq_singleton hne hblank]
  simp

/-- A mnemonic and a text without blanks behind it are two words. -/
theorem Opcode.words_mnemonic_append (op : Opcode) {s : String} (hne : s.toList ≠ [])
    (hblank : ∀ c ∈ s.toList, isBlank c = false) :
    words (op.mnemonic ++ " " ++ s) = [op.mnemonic, s] := by
  obtain ⟨hop, hopblank⟩ := isName_toList op.isName_mnemonic
  have hchars : (op.mnemonic ++ " " ++ s).toList = op.mnemonic.toList ++ ' ' :: s.toList := by
    simp
  rw [words, hchars, runs_append_space hop hopblank, runs_eq_singleton hne hblank]
  simp

theorem Opcode.words_mnemonic_operand (op : Opcode) (operand : Operand) (h : operand.WellFormed) :
    words (op.mnemonic ++ " " ++ operand.text) = [op.mnemonic, operand.text] :=
  op.words_mnemonic_append h.toList_text.1 h.toList_text.2

namespace Instruction

/-- An instruction is well formed if its operand is. -/
def WellFormed (i : Instruction) : Prop := ∀ operand ∈ i.form.operand, operand.WellFormed

theorem decode_inherent (op : Opcode) {i : Instruction} (hop : op.pattern = .inherent i)
    (address : Option Int) : decode (.text op.mnemonic) address = .ok i := by
  simp only [decode, op.words_mnemonic]
  simp [ofTokens, op.ofMnemonic?_mnemonic, hop]

theorem decode_symbolic (op : Opcode) {make : String → Instruction} {name : String}
    (hop : op.pattern = .symbolic make) (h : isName name) (address : Option Int) :
    decode (.text (op.mnemonic ++ " " ++ name)) address = .ok (make name) := by
  have hwords := op.words_mnemonic_operand (.symbol name) h
  rw [Operand.text] at hwords
  simp only [decode, hwords]
  simp [ofTokens, op.ofMnemonic?_mnemonic, hop, h]

theorem decode_numeric (op : Opcode) {make : Int → Instruction} {n : Int}
    (hop : op.pattern = .numeric make) (h : Numeral.fits n) (address : Option Int) :
    decode (.text (op.mnemonic ++ " " ++ Numeral.decimal n)) address = .ok (make n) := by
  have hwords := op.words_mnemonic_operand (.integer n) h
  rw [Operand.text] at hwords
  simp only [decode, hwords]
  simp [ofTokens, op.ofMnemonic?_mnemonic, hop, Numeral.read_decimal h]

/-- **The text of a well-formed instruction is decoded as that instruction.** -/
theorem decode_text {i : Instruction} (h : i.WellFormed) (address : Option Int) :
    decode (.text i.text) address = .ok i := by
  cases i with
  | declare name => exact decode_symbolic .dec rfl (h _ rfl) address
  | load name => exact decode_symbolic .lda rfl (h _ rfl) address
  | loadImmediate n => exact decode_numeric .ldi rfl (h _ rfl) address
  | store name => exact decode_symbolic .str rfl (h _ rfl) address
  | exchange => exact decode_inherent .xch rfl address
  | jump target => exact decode_numeric .jmp rfl (h _ rfl) address
  | jumpIfZero target => exact decode_numeric .jzs rfl (h _ rfl) address
  | jumpIfOverflow target => exact decode_numeric .jvs rfl (h _ rfl) address
  | add => exact decode_inherent .add rfl address
  | subtract => exact decode_inherent .sub rfl address
  | halt => exact decode_inherent .hlt rfl address

theorem wellFormed_of_ofTokens {address : Option Int} {token : String} {operands : List String}
    {i : Instruction} (h : ofTokens address token operands = .ok i) : i.WellFormed := by
  unfold ofTokens at h
  split at h
  · cases h
  · next op _ =>
    split at h
    · next j hop =>
      obtain rfl := Except.ok.inj h
      cases op <;> cases hop <;> simp [WellFormed, form]
    · cases h
    · next make operand hop =>
      split at h
      · next hname =>
        obtain rfl := Except.ok.inj h
        cases op <;> cases hop <;> simpa [WellFormed, form, Operand.WellFormed] using hname
      · cases h
    · next make operand hop =>
      split at h
      · cases h
      · cases h
      · next n hread =>
        obtain rfl := Except.ok.inj h
        have hfits := Numeral.fits_of_read hread
        cases op <;> cases hop <;> simpa [WellFormed, form, Operand.WellFormed] using hfits
    · cases h

/-- **Every decoded instruction is well formed.** -/
theorem wellFormed_of_decode {word : Word} {address : Option Int} {i : Instruction}
    (h : decode word address = .ok i) : i.WellFormed := by
  unfold decode at h
  split at h
  · cases h
  · split at h
    · cases h
    · exact wellFormed_of_ofTokens h

end Instruction

end Accumulator
