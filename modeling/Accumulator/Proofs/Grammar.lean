import Accumulator.Proofs.Refusal
import Accumulator.Proofs.SignedDigits
import Accumulator.Proofs.Tokens

/-!
# The grammar of instructions

An instruction is spelled with one token or two.  The first is a mnemonic.  An opcode that takes a
name has an identifier behind it, one that takes an integer has signed digits behind it, and any
other stands alone (`Form.Spelled`).  The grammar is told without reference to the decoder: tokens
by `Tokenized`, numerals by `SignedDigits`, identifiers by the characters they are made of.

The decoder accepts the words that spell an instruction, and no others.  It fails on the rest for
one of three reasons: the word has no opcode in front, the integer behind the opcode has too many
digits, or what is behind the opcode does not go with it.  The first and the last of these are
faults if their message can be written (`Word.Legible`), and the failure to write it otherwise
(`decode_follows_grammar`).

Among the ways to spell an instruction there is the text that it is written as, so writing and
decoding are inverse (`decode_inverts_write`).
-/

namespace Accumulator

open Text
open Numeral (SignedDigits denoted maxDigits)

/-! ### Identifiers -/

namespace Text

/-- A letter of the alphabet, or the underscore. -/
def IsLetter (c : Char) : Prop := 'A' ≤ c ∧ c ≤ 'Z' ∨ 'a' ≤ c ∧ c ≤ 'z' ∨ c = '_'

/-- A letter, followed by any number of letters and digits. -/
def Identifier : List Char → Prop
  | [] => False
  | c :: cs => IsLetter c ∧ ∀ d ∈ cs, IsLetter d ∨ '0' ≤ d ∧ d ≤ '9'

end Text

theorem isNameStart_iff {c : Char} : isNameStart c ↔ IsLetter c := by
  have hupper : c.isUpper ↔ 'A' ≤ c ∧ c ≤ 'Z' := decide_eq_true_iff
  have hlower : c.isLower ↔ 'a' ≤ c ∧ c ≤ 'z' :=
    (Bool.and_eq_true ..).to_iff.trans (and_congr decide_eq_true_iff decide_eq_true_iff)
  have halpha : c.isAlpha ↔ c.isUpper ∨ c.isLower := Bool.or_eq_true_iff
  rw [isNameStart, Bool.or_eq_true, halpha, hupper, hlower, beq_iff_eq, or_assoc]
  exact Iff.rfl

theorem isNameRest_iff {c : Char} : isNameRest c ↔ IsLetter c ∨ '0' ≤ c ∧ c ≤ '9' := by
  rw [← isNameStart_iff]
  simp only [isNameRest, Char.isDigit, Bool.or_eq_true, Bool.and_eq_true, decide_eq_true_eq]
  exact Iff.rfl

/-- The names of variables are the identifiers. -/
theorem isName_iff {s : String} : isName s ↔ Identifier s.toList := by
  unfold isName
  cases s.toList with
  | nil => simp [Identifier]
  | cons c cs =>
    simp only [Identifier, Bool.and_eq_true, List.all_eq_true, isNameStart_iff, isNameRest_iff]

/-! ### Forms -/

/-- Whether tokens spell a form. -/
inductive Form.Spelled : Form → List String → Prop
  /-- An opcode that takes nothing stands alone. -/
  | inherent {op : Opcode} (kind : op.operandKind = .inherent) : Spelled ⟨op, none⟩ [op.mnemonic]
  /-- An opcode that takes a name has one behind it. -/
  | symbol {op : Opcode} {name : String} (kind : op.operandKind = .symbol)
      (identifier : Identifier name.toList) :
      Spelled ⟨op, some (.symbol name)⟩ [op.mnemonic, name]
  /-- An opcode that takes an integer has signed digits behind it, which are not too many. -/
  | integer {op : Opcode} {numeral : String} {negative : Bool} {digits : List Nat}
      (kind : op.operandKind = .immediate ∨ op.operandKind = .address)
      (signed : SignedDigits numeral.toList negative digits) (length : digits.length ≤ maxDigits) :
      Spelled ⟨op, some (.integer (denoted negative digits))⟩ [op.mnemonic, numeral]

theorem Instruction.form_injective {i j : Instruction} (h : i.form = j.form) : i = j := by
  cases i <;> cases j <;> simp_all [form]

namespace Opcode

variable {op : Opcode} {operands : List String}

theorem mnemonic_injective {other : Opcode} (h : op.mnemonic = other.mnemonic) : op = other := by
  have hsome : some op = some other := by
    rw [← op.ofMnemonic?_mnemonic, h, other.ofMnemonic?_mnemonic]
  exact Option.some.inj hsome

theorem pattern_of_inherent (h : op.operandKind = .inherent) :
    ∃ i, op.pattern = .inherent i ∧ i.form = ⟨op, none⟩ := by
  cases op <;> cases h <;> exact ⟨_, rfl, rfl⟩

theorem pattern_of_symbol (h : op.operandKind = .symbol) :
    ∃ make, op.pattern = .symbolic make ∧
      ∀ name, (make name).form = ⟨op, some (.symbol name)⟩ := by
  cases op <;> cases h <;> exact ⟨_, rfl, fun _ => rfl⟩

theorem pattern_of_integer (h : op.operandKind = .immediate ∨ op.operandKind = .address) :
    ∃ make, op.pattern = .numeric make ∧ ∀ n, (make n).form = ⟨op, some (.integer n)⟩ := by
  rcases h with h | h <;> cases op <;> cases h <;> exact ⟨_, rfl, fun _ => rfl⟩

/-- What an opcode makes of tokens is spelled by them. -/
theorem Makes.spelled {i : Instruction} (h : op.Makes operands i)
    (htokens : ∀ operand ∈ operands, IsToken operand.toList) :
    i.form.Spelled (op.mnemonic :: operands) := by
  cases h with
  | inherent hop => cases op <;> cases hop <;> exact .inherent rfl
  | symbolic hop hname =>
    cases op <;> cases hop <;> exact .symbol rfl (isName_iff.1 hname)
  | @numeric make numeral n hop hread =>
    obtain ⟨negative, digits, hsigned, hlength, rfl⟩ := Numeral.read_eq_ok_some_iff.1 hread
    rw [trimBoth_eq_self (htokens numeral (List.mem_singleton_self _)).2] at hsigned
    cases op <;> cases hop <;> first
      | exact .integer (Or.inl rfl) hsigned hlength
      | exact .integer (Or.inr rfl) hsigned hlength

end Opcode

/-- Tokens that spell a form are a mnemonic and operands of which its opcode makes the form. -/
theorem Form.Spelled.exists_makes {form : Form} {tokens : List String} (h : form.Spelled tokens)
    (htokens : ∀ token ∈ tokens, IsToken token.toList) :
    ∃ op operands i, tokens = op.mnemonic :: operands ∧ Opcode.Makes op operands i ∧
      i.form = form := by
  cases h with
  | @inherent op hkind =>
    obtain ⟨i, hop, hform⟩ := op.pattern_of_inherent hkind
    exact ⟨op, [], i, rfl, .inherent hop, hform⟩
  | @symbol op name hkind hname =>
    obtain ⟨make, hop, hform⟩ := op.pattern_of_symbol hkind
    exact ⟨op, [name], make name, rfl, .symbolic hop (isName_iff.2 hname), hform name⟩
  | @integer op numeral negative digits hkind hsigned hlength =>
    obtain ⟨make, hop, hform⟩ := op.pattern_of_integer hkind
    have hread : Numeral.read numeral = .ok (some (denoted negative digits)) := by
      refine Numeral.read_eq_ok_some_iff.2 ⟨negative, digits, ?_, hlength, rfl⟩
      rw [trimBoth_eq_self (htokens numeral (by simp)).2]
      exact hsigned
    exact ⟨op, [numeral], _, rfl, .numeric hop hread, hform _⟩

/-! ### Words -/

namespace Word

variable {word : Word} {address : Option Int} {tokens : List String}

/-- Whether a word is a text of these tokens. -/
def HasTokens (word : Word) (tokens : List String) : Prop :=
  ∃ s, word = .text s ∧ Tokenized s.toList (tokens.map String.toList)

/-- Whether a word spells an instruction of this form. -/
def Spells (word : Word) (form : Form) : Prop :=
  ∃ tokens, word.HasTokens tokens ∧ form.Spelled tokens

/-- Whether a word has no opcode in front: it is no text, it is blank, or its first token is no
mnemonic. -/
def LacksOpcode (word : Word) : Prop :=
  (∀ s, word ≠ .text s) ∨ word.HasTokens [] ∨
    ∃ token operands, word.HasTokens (token :: operands) ∧ ∀ op : Opcode, op.mnemonic ≠ token

/-- Whether a word is an opcode that takes an integer, and signed digits that are too many. -/
def SpellsOverlong (word : Word) : Prop :=
  ∃ (op : Opcode) (numeral : String) (negative : Bool) (digits : List Nat),
    word.HasTokens [op.mnemonic, numeral] ∧
      (op.operandKind = .immediate ∨ op.operandKind = .address) ∧
      SignedDigits numeral.toList negative digits ∧ maxDigits < digits.length

/-- Whether a word has an opcode in front and does not go on as the grammar says. -/
def Misspelled (word : Word) : Prop :=
  (∀ form, ¬ word.Spells form) ∧ ¬ word.LacksOpcode ∧ ¬ word.SpellsOverlong

/-- Whether the message can be written that refuses a word at an address.  It writes out the
address, the word itself if that is a number, and the number of operands behind an opcode that takes
one. -/
structure Legible (word : Word) (address : Option Int) : Prop where
  address : ∀ n ∈ address, Numeral.fits n
  number : ∀ n, word = .number n → Numeral.fits n
  count : ∀ (op : Opcode) (operands : List String), word.HasTokens (op.mnemonic :: operands) →
    op.operandKind ≠ .inherent → Numeral.fits operands.length

theorem hasTokens_iff : word.HasTokens tokens ↔ ∃ s, word = .text s ∧ words s = tokens := by
  simp only [HasTokens, words_eq_iff]

theorem HasTokens.isToken (h : word.HasTokens tokens) :
    ∀ token ∈ tokens, IsToken token.toList := by
  obtain ⟨s, -, rfl⟩ := hasTokens_iff.1 h
  exact fun token => isToken_of_mem_words

theorem HasTokens.unique {other : List String} (h : word.HasTokens tokens)
    (hother : word.HasTokens other) : tokens = other := by
  obtain ⟨s, rfl, rfl⟩ := hasTokens_iff.1 h
  obtain ⟨t, ht, rfl⟩ := hasTokens_iff.1 hother
  rw [Word.text.inj ht]

theorem legible_number_iff {n : Int} :
    Legible (.number n) address ↔
      ∀ k ∈ address.toList ++ (Cause.notText (.number n)).numerals, Numeral.fits k := by
  constructor
  · intro h k hk
    rcases List.mem_append.1 hk with hk | hk
    · exact h.address k (Option.mem_toList.1 hk)
    · rw [List.mem_singleton.1 hk]
      exact h.number n rfl
  · intro h
    refine ⟨fun k hk => h k (List.mem_append_left _ (Option.mem_toList.2 hk)), fun k hk => ?_,
      fun op operands htokens => ?_⟩
    · obtain rfl := Word.number.inj hk
      exact h n (List.mem_append_right _ (List.mem_singleton_self n))
    · obtain ⟨s, hs, -⟩ := htokens
      cases hs

/-- Only the address is written out in the message that refuses a text, unless it counts operands
other than one. -/
theorem legible_iff_of_brief {s : String} (hword : word = .text s)
    (h : ∀ (op : Opcode) (operands : List String), word.HasTokens (op.mnemonic :: operands) →
      op.operandKind ≠ .inherent → operands.length = 1) {cause : Cause}
    (hbrief : cause.numerals = []) :
    word.Legible address ↔ ∀ n ∈ address.toList ++ cause.numerals, Numeral.fits n := by
  rw [hbrief, List.append_nil]
  refine ⟨fun hlegible n hn => hlegible.address n (Option.mem_toList.1 hn), fun hfits => ?_⟩
  refine ⟨fun n hn => hfits n (Option.mem_toList.2 hn), fun n hn => ?_,
    fun op operands htokens hkind => ?_⟩
  · rw [hword] at hn
    cases hn
  · rw [h op operands htokens hkind]
    decide +kernel

theorem legible_iff_of_counted {op : Opcode} {operands : List String}
    (htokens : word.HasTokens (op.mnemonic :: operands)) (hkind : op.operandKind ≠ .inherent) :
    word.Legible address ↔
      ∀ n ∈ address.toList ++ (Cause.operandCount op operands.length).numerals,
        Numeral.fits n := by
  constructor
  · intro h n hn
    rcases List.mem_append.1 hn with hn | hn
    · exact h.address n (Option.mem_toList.1 hn)
    · rw [List.mem_singleton.1 hn]
      exact h.count op operands htokens hkind
  · intro h
    refine ⟨fun n hn => h n (List.mem_append_left _ (Option.mem_toList.2 hn)), fun n hn => ?_,
      fun other others hothers _ => ?_⟩
    · obtain ⟨s, rfl, -⟩ := htokens
      cases hn
    · rw [← (List.cons.inj (htokens.unique hothers)).2]
      exact h _ (List.mem_append_right _ (List.mem_singleton_self _))

end Word

/-! ### Decoding -/

namespace Instruction

variable {word : Word} {address : Option Int}

theorem decode_of_hasTokens {token : String} {operands : List String}
    (h : word.HasTokens (token :: operands)) :
    decode word address = ofTokens address token operands := by
  obtain ⟨s, rfl, hwords⟩ := Word.hasTokens_iff.1 h
  simp only [decode, hwords]

theorem ofTokens_of_makes {op : Opcode} {operands : List String} {i : Instruction}
    (h : op.Makes operands i) : ofTokens address op.mnemonic operands = .ok i := by
  unfold ofTokens
  rw [op.ofMnemonic?_mnemonic]
  cases h with
  | inherent hop => simp only [hop]
  | symbolic hop hname => simp only [hop, hname, if_true]
  | numeric hop hread => simp only [hop, hread]

/-- A word that spells an instruction is decoded to it. -/
theorem decode_of_spells {form : Form} (h : word.Spells form) (address : Option Int) :
    ∃ i, decode word address = .ok i ∧ i.form = form := by
  obtain ⟨tokens, htokens, hspelled⟩ := h
  obtain ⟨op, operands, i, rfl, hmakes, hform⟩ := hspelled.exists_makes htokens.isToken
  exact ⟨i, (decode_of_hasTokens htokens).trans (ofTokens_of_makes hmakes), hform⟩

/-- A word with too many digits is not decoded. -/
theorem decode_of_spellsOverlong (h : word.SpellsOverlong) (address : Option Int) :
    ∃ digits, decode word address = .error (.overlong (.reading digits)) := by
  obtain ⟨op, numeral, negative, digits, htokens, hkind, hsigned, hlength⟩ := h
  obtain ⟨make, hop, -⟩ := op.pattern_of_integer hkind
  have hread : Numeral.read numeral = .error (.reading digits.length) := by
    refine Numeral.read_eq_error_iff.2 ⟨negative, digits, ?_, hlength, rfl⟩
    rw [trimBoth_eq_self (htokens.isToken numeral (by simp)).2]
    exact hsigned
  refine ⟨digits.length, ?_⟩
  rw [decode_of_hasTokens htokens, ofTokens, op.ofMnemonic?_mnemonic]
  simp only [hop, hread]

/-- Whether a word is refused for a cause: with the fault that the cause makes if the word is
legible, and otherwise with the failure to write the message of that fault. -/
def RefusedFor (word : Word) (address : Option Int) (cause : Cause) : Prop :=
  (word.Legible address ∧ decode word address = .error (.fault ⟨cause, address⟩)) ∨
    (¬ word.Legible address ∧ decode word address = .error (.overlong .writing))

theorem refusedFor_of_decode {cause : Cause}
    (h : word.Legible address ↔ ∀ n ∈ address.toList ++ cause.numerals, Numeral.fits n)
    (hdecode : decode word address = .error (.ofCause cause address)) :
    RefusedFor word address cause := by
  by_cases hlegible : word.Legible address
  · have hcause := Failure.ofCause_of_fits (h.1 hlegible)
    exact Or.inl ⟨hlegible, hdecode.trans (congrArg Except.error hcause)⟩
  · have hcause := Failure.ofCause_of_not_fits fun hfits => hlegible (h.2 hfits)
    exact Or.inr ⟨hlegible, hdecode.trans (congrArg Except.error hcause)⟩

theorem RefusedFor.fault {cause : Cause} (h : RefusedFor word address cause)
    (hlegible : word.Legible address) : decode word address = .error (.fault ⟨cause, address⟩) :=
  h.elim And.right fun hnot => absurd hlegible hnot.1

theorem RefusedFor.writing {cause : Cause} (h : RefusedFor word address cause)
    (hillegible : ¬ word.Legible address) : decode word address = .error (.overlong .writing) :=
  h.elim (fun hfault => absurd hfault.1 hillegible) And.right

/-- A word without an opcode is refused for that. -/
theorem decode_of_lacksOpcode (h : word.LacksOpcode) (address : Option Int) :
    ∃ cause, cause.kind = .invalidOpcode ∧ RefusedFor word address cause := by
  rcases h with htext | hblank | ⟨token, operands, htokens, hunknown⟩
  · cases word with
    | text s => exact absurd rfl (htext s)
    | number n => exact ⟨_, rfl, refusedFor_of_decode Word.legible_number_iff rfl⟩
  · obtain ⟨s, rfl, hwords⟩ := Word.hasTokens_iff.1 hblank
    have hlegible : (Word.text s).Legible address ↔
        ∀ n ∈ address.toList ++ Cause.emptyInstruction.numerals, Numeral.fits n :=
      Word.legible_iff_of_brief rfl (fun op operands htokens => by cases hblank.unique htokens) rfl
    refine ⟨_, rfl, refusedFor_of_decode hlegible ?_⟩
    simp only [decode, hwords]
  · obtain ⟨s, hs, -⟩ := id htokens
    have hcount : ∀ (op : Opcode) (others : List String),
        word.HasTokens (op.mnemonic :: others) → op.operandKind ≠ .inherent → others.length = 1 :=
      fun op others hothers => absurd (List.cons.inj (hothers.unique htokens)).1 (hunknown op)
    have hlegible : word.Legible address ↔
        ∀ n ∈ address.toList ++ (Cause.unknownOpcode token).numerals, Numeral.fits n :=
      Word.legible_iff_of_brief hs hcount rfl
    refine ⟨_, rfl, refusedFor_of_decode hlegible ?_⟩
    rw [decode_of_hasTokens htokens, ofTokens, Opcode.ofMnemonic?_eq_none hunknown]

/-- A word with an opcode in front is a text of tokens. -/
theorem exists_hasTokens (h : ¬ word.LacksOpcode) :
    ∃ (op : Opcode) (operands : List String), word.HasTokens (op.mnemonic :: operands) := by
  cases word with
  | number n => exact absurd (Or.inl fun s => by simp) h
  | text s =>
    cases hwords : words s with
    | nil => exact absurd (Or.inr (Or.inl (Word.hasTokens_iff.2 ⟨s, rfl, hwords⟩))) h
    | cons token operands =>
      have htokens := Word.hasTokens_iff.2 ⟨s, rfl, hwords⟩
      by_cases hknown : ∃ op : Opcode, op.mnemonic = token
      · obtain ⟨op, rfl⟩ := hknown
        exact ⟨op, operands, htokens⟩
      · exact absurd (Or.inr (Or.inr ⟨token, operands, htokens, not_exists.1 hknown⟩)) h

/-- A word that is misspelled is refused for its operands. -/
theorem decode_of_misspelled (h : word.Misspelled) (address : Option Int) :
    ∃ cause, cause.kind = .malformedOperand ∧ RefusedFor word address cause := by
  obtain ⟨hspells, hopcode, hoverlong⟩ := h
  obtain ⟨op, operands, htokens⟩ := exists_hasTokens hopcode
  by_cases hcount : op.operandKind ≠ .inherent ∧ operands.length ≠ 1
  · refine ⟨_, rfl, refusedFor_of_decode (Word.legible_iff_of_counted htokens hcount.1) ?_⟩
    rw [decode_of_hasTokens htokens, ofTokens_of_miscounted hcount.1 hcount.2]
  · have hdecoded := decoded_ofTokens address op operands
    rw [← decode_of_hasTokens htokens] at hdecoded
    generalize hresult : decode word address = result at hdecoded
    -- what the opcode makes of the tokens, and a numeral that is too long, are spellings after all
    cases hdecoded with
    | made hmakes =>
      have hspelled := hmakes.spelled fun token ht =>
        htokens.isToken token (List.mem_cons_of_mem _ ht)
      exact absurd ⟨_, htokens, hspelled⟩ (hspells _)
    | miscounted hkind hne => exact absurd ⟨hkind, hne⟩ hcount
    | malformed _ hkind hbrief =>
      obtain ⟨s, hs, -⟩ := id htokens
      refine ⟨_, hkind, refusedFor_of_decode (Word.legible_iff_of_brief hs ?_ hbrief) hresult⟩
      intro other others hothers hother
      obtain ⟨hmnemonic, rfl⟩ := List.cons.inj (htokens.unique hothers)
      obtain rfl := Opcode.mnemonic_injective hmnemonic
      by_contra hne
      exact hcount ⟨hother, hne⟩
    | @overlong make numeral error hop hsingle hread =>
      obtain rfl := hsingle
      obtain ⟨negative, digits, hsigned, hlength, -⟩ := Numeral.read_eq_error_iff.1 hread
      rw [trimBoth_eq_self (htokens.isToken numeral (by simp)).2] at hsigned
      have hkind : op.operandKind = .immediate ∨ op.operandKind = .address := by
        cases op <;> cases hop <;> simp [Opcode.operandKind]
      exact absurd ⟨op, numeral, negative, digits, htokens, hkind, hsigned, hlength⟩ hoverlong

/-- What a word is decoded to. -/
inductive DecodeOutcome (word : Word) (address : Option Int) : Except Failure Instruction → Prop
  /-- It spells the instruction. -/
  | accepted {i : Instruction} (spells : word.Spells i.form) : DecodeOutcome word address (.ok i)
  /-- It has an integer of too many digits. -/
  | overlong {digits : Nat} (spells : word.SpellsOverlong) :
      DecodeOutcome word address (.error (.overlong (.reading digits)))
  /-- It has no opcode in front. -/
  | lacking {cause : Cause} (lacks : word.LacksOpcode) (kind : cause.kind = .invalidOpcode)
      (legible : word.Legible address) :
      DecodeOutcome word address (.error (.fault ⟨cause, address⟩))
  /-- It goes on wrong behind its opcode. -/
  | misspelled {cause : Cause} (misspelled : word.Misspelled)
      (kind : cause.kind = .malformedOperand) (legible : word.Legible address) :
      DecodeOutcome word address (.error (.fault ⟨cause, address⟩))
  /-- Either, and the message cannot be written. -/
  | illegible (refused : word.LacksOpcode ∨ word.Misspelled) (illegible : ¬ word.Legible address) :
      DecodeOutcome word address (.error (.overlong .writing))

/-- **Every word is decoded to one of these.** -/
theorem decodeOutcome_decode (word : Word) (address : Option Int) :
    DecodeOutcome word address (decode word address) := by
  by_cases hspells : ∃ form, word.Spells form
  · obtain ⟨form, hspells⟩ := hspells
    obtain ⟨i, hdecode, rfl⟩ := decode_of_spells hspells address
    rw [hdecode]
    exact .accepted hspells
  · by_cases hopcode : word.LacksOpcode
    · obtain ⟨cause, hkind, ⟨hlegible, hdecode⟩ | ⟨hillegible, hdecode⟩⟩ :=
        decode_of_lacksOpcode hopcode address
      · rw [hdecode]
        exact .lacking hopcode hkind hlegible
      · rw [hdecode]
        exact .illegible (Or.inl hopcode) hillegible
    · by_cases hoverlong : word.SpellsOverlong
      · obtain ⟨digits, hdecode⟩ := decode_of_spellsOverlong hoverlong address
        rw [hdecode]
        exact .overlong hoverlong
      · have hmisspelled : word.Misspelled := ⟨not_exists.1 hspells, hopcode, hoverlong⟩
        obtain ⟨cause, hkind, ⟨hlegible, hdecode⟩ | ⟨hillegible, hdecode⟩⟩ :=
          decode_of_misspelled hmisspelled address
        · rw [hdecode]
          exact .misspelled hmisspelled hkind hlegible
        · rw [hdecode]
          exact .illegible (Or.inr hmisspelled) hillegible

/-- What is decoded was spelled. -/
theorem spells_of_decode {i : Instruction} (h : decode word address = .ok i) :
    word.Spells i.form := by
  have houtcome := decodeOutcome_decode word address
  rw [h] at houtcome
  cases houtcome with
  | accepted hspells => exact hspells

/-- A word is refused with a fault at the address, and for its opcode or its operands. -/
theorem refused_of_decode {fault : Fault} (h : decode word address = .error (.fault fault)) :
    fault.address = address ∧ word.Legible address ∧
      (fault.kind = .invalidOpcode ∧ word.LacksOpcode ∨
        fault.kind = .malformedOperand ∧ word.Misspelled) := by
  have houtcome := decodeOutcome_decode word address
  rw [h] at houtcome
  cases houtcome with
  | lacking hlacks hkind hlegible => exact ⟨rfl, hlegible, Or.inl ⟨hkind, hlacks⟩⟩
  | misspelled hmisspelled hkind hlegible =>
    exact ⟨rfl, hlegible, Or.inr ⟨hkind, hmisspelled⟩⟩

/-- A message that cannot be written refuses a word for its opcode or its operands. -/
theorem refused_of_decode_writing (h : decode word address = .error (.overlong .writing)) :
    (word.LacksOpcode ∨ word.Misspelled) ∧ ¬ word.Legible address := by
  have houtcome := decodeOutcome_decode word address
  rw [h] at houtcome
  cases houtcome with
  | illegible hrefused hillegible => exact ⟨hrefused, hillegible⟩

theorem spellsOverlong_of_decode {digits : Nat}
    (h : decode word address = .error (.overlong (.reading digits))) : word.SpellsOverlong := by
  have houtcome := decodeOutcome_decode word address
  rw [h] at houtcome
  cases houtcome with
  | overlong hspells => exact hspells

/-- A word in which blanks of several kinds stand around the tokens, and digits of several scripts
in the numeral. -/
def foreign : Word := .text "\tLDI\u00a0\u2003-\u0664\u096b6\u3000"

theorem spells_foreign : foreign.Spells ⟨.ldi, some (.integer (-456))⟩ := by
  have hwords : words "\tLDI\u00a0\u2003-\u0664\u096b6\u3000" = ["LDI", "-\u0664\u096b6"] := by
    decide +kernel
  have hsigned : SignedDigits "-\u0664\u096b6".toList true [4, 5, 6] :=
    .minus ⟨by decide, .cons rfl (.cons rfl (.cons rfl .nil))⟩
  exact ⟨_, Word.hasTokens_iff.2 ⟨_, rfl, hwords⟩, .integer (Or.inl rfl) hsigned (by decide)⟩

end Instruction

/-! ### Writing -/

/-- Whether an operand goes with its opcode: none, an identifier, or an integer that does not have
too many digits. -/
def Form.Fits (form : Form) : Prop :=
  match form.opcode.operandKind, form.operand with
  | .inherent, none => True
  | .symbol, some (.symbol name) => Identifier name.toList
  | .immediate, some (.integer n) => (Nat.toDigits 10 n.natAbs).length ≤ maxDigits
  | .address, some (.integer n) => (Nat.toDigits 10 n.natAbs).length ≤ maxDigits
  | _, _ => False

/-- The forms whose operand goes with their opcode are those of the well-formed instructions. -/
theorem Form.fits_iff {form : Form} :
    form.Fits ↔ ∃ i : Instruction, i.form = form ∧ i.WellFormed := by
  constructor
  · intro h
    obtain ⟨op, operand⟩ := form
    unfold Fits at h
    dsimp only at h
    split at h
    · next hkind =>
      obtain ⟨i, -, hform⟩ := op.pattern_of_inherent hkind
      exact ⟨i, hform, by simp [Instruction.WellFormed, hform]⟩
    · next name hkind =>
      obtain ⟨make, -, hform⟩ := op.pattern_of_symbol hkind
      refine ⟨make name, hform name, ?_⟩
      simpa [Instruction.WellFormed, hform, Operand.WellFormed] using isName_iff.2 h
    · next n hkind =>
      obtain ⟨make, -, hform⟩ := op.pattern_of_integer (Or.inl hkind)
      refine ⟨make n, hform n, ?_⟩
      simpa [Instruction.WellFormed, hform, Operand.WellFormed] using
        Numeral.length_toDigits_iff.1 h
    · next n hkind =>
      obtain ⟨make, -, hform⟩ := op.pattern_of_integer (Or.inr hkind)
      refine ⟨make n, hform n, ?_⟩
      simpa [Instruction.WellFormed, hform, Operand.WellFormed] using
        Numeral.length_toDigits_iff.1 h
    · cases h
  · rintro ⟨i, rfl, hi⟩
    cases i with
    | declare name | load name | store name => exact isName_iff.1 (hi _ rfl)
    | loadImmediate n | jump n | jumpIfZero n | jumpIfOverflow n =>
      exact Numeral.length_toDigits_iff.2 (hi _ rfl)
    | exchange | add | subtract | halt => trivial

namespace Instruction

/-- A well-formed instruction can be written. -/
theorem WellFormed.write {i : Instruction} (h : i.WellFormed) : i.form.write = .ok i.text := by
  have hfits : ∀ operand ∈ i.form.operand, ∀ n ∈ operand.numerals, Numeral.fits n := by
    intro operand hmem n hn
    have hoperand := h operand hmem
    cases operand with
    | symbol name => cases hn
    | integer k =>
      obtain rfl := List.mem_singleton.1 hn
      exact hoperand
  rw [Form.write, if_pos, text]
  simpa using hfits

/-- **Writing and decoding are inverse.**  Every form whose operand goes with its opcode can be
written, and what is written is decoded to the instruction of that form.  Every word that is decoded
at all gives an instruction of such a form, so that the instruction can be written, and what is
written is decoded to it again. -/
theorem decode_inverts_write (address : Option Int) :
    (∀ form : Form, form.Fits → ∃ s i, form.write = .ok s ∧
      decode (.text s) address = .ok i ∧ i.form = form) ∧
    ∀ word i, decode word address = .ok i → i.form.Fits ∧
      ∃ s, i.form.write = .ok s ∧ decode (.text s) address = .ok i := by
  refine ⟨fun form h => ?_, fun word i h => ?_⟩
  · obtain ⟨i, rfl, hi⟩ := Form.fits_iff.1 h
    exact ⟨i.text, i, hi.write, decode_text hi address, rfl⟩
  · have hi := wellFormed_of_decode h
    exact ⟨Form.fits_iff.2 ⟨i, rfl, hi⟩, i.text, hi.write, decode_text hi address⟩

theorem decode_inverts_write_foreign :
    decode foreign none = .ok (.loadImmediate (-456)) ∧
      ∃ s, (loadImmediate (-456)).form.write = .ok s ∧
        decode (.text s) none = .ok (.loadImmediate (-456)) := by
  have hdecode : decode foreign none = .ok (.loadImmediate (-456)) := by
    obtain ⟨i, hdecode, hform⟩ := decode_of_spells spells_foreign none
    rw [hdecode, form_injective (j := .loadImmediate (-456)) hform]
  exact ⟨hdecode, ((decode_inverts_write none).2 foreign _ hdecode).2⟩

end Instruction

end Accumulator
