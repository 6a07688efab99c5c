import Accumulator.Proofs.Readable
import Accumulator.Text.Quoted
import Mathlib.Data.List.Basic

/-!
# The values of JSON text

`Value` are the values that dumps are made of: strings, integers, truth values and objects, whose
members are in order.  `Value.text` is the text of a value that stands inside a number of objects,
put together by the printers of strings and objects.

A character is read off its escape (`unescape_escape`), and so is a string, since a quote inside it
is escaped (`string_append_inj`).  A value is read off if a comma or a line break follows it, as
happens inside an object, or nothing at all.  So JSON text stands for one value only
(`Value.text_injective`).
-/

namespace Accumulator.Text.Json

open Numeral (decimal isDecimal)

/-! ### Strings -/

/-- The number that hexadecimal digits stand for. -/
def hexValue (digits : List Char) : Nat :=
  digits.foldl (fun n c => 16 * n + if c.isDigit then c.toNat - 48 else c.toNat - 87) 0

/-- The first character of what stands in a string, and what is behind it. -/
def unescape : List Char → Option (Char × List Char)
  | '\\' :: 'n' :: cs => some ('\n', cs)
  | '\\' :: 'r' :: cs => some ('\r', cs)
  | '\\' :: 't' :: cs => some ('\t', cs)
  | '\\' :: 'b' :: cs => some (Char.ofNat 0x08, cs)
  | '\\' :: 'f' :: cs => some (Char.ofNat 0x0C, cs)
  | '\\' :: 'u' :: a :: b :: c :: d :: cs => some (Char.ofNat (hexValue [a, b, c, d]), cs)
  | '\\' :: c :: cs => some (c, cs)
  | c :: cs => some (c, cs)
  | [] => none

theorem unescape_hex {n : Nat} (h : n < 0x20) (cs : List Char) :
    unescape ('\\' :: 'u' :: hex 4 n ++ cs) = some (Char.ofNat n, cs) := by
  -- the control characters are few enough to look at each
  have hdigits : ∀ n < 0x20, (hex 4 n).length = 4 ∧ hexValue (hex 4 n) = n := by decide +kernel
  obtain ⟨hlength, hvalue⟩ := hdigits n h
  obtain ⟨a, b, c, d, hhex⟩ := List.length_eq_four.1 hlength
  rw [hhex] at hvalue ⊢
  simp only [List.cons_append, List.nil_append, unescape, hvalue]

/-- **A character is read off its escape.** -/
theorem unescape_escape (c : Char) (cs : List Char) : unescape (escape c ++ cs) = some (c, cs) := by
  unfold escape
  split
  · next h => subst h; rfl
  split
  · next h => subst h; rfl
  split
  · next h => subst h; rfl
  split
  · next h => subst h; rfl
  split
  · next h => subst h; rfl
  split
  · next h => rw [← Char.ofNat_toNat c, h]; rfl
  split
  · next h => rw [← Char.ofNat_toNat c, h]; rfl
  split
  · next h => rw [unescape_hex h, Char.ofNat_toNat]
  · next hbackslash _ _ _ _ _ _ => simp [unescape, hbackslash]

theorem escape_append_inj {c d : Char} {cs ds : List Char}
    (h : escape c ++ cs = escape d ++ ds) : c = d ∧ cs = ds := by
  have hread := congrArg unescape h
  rw [unescape_escape, unescape_escape] at hread
  exact Prod.mk.inj (Option.some.inj hread)

/-- No escape begins with a quote. -/
theorem escape_append_ne (c : Char) (cs rest : List Char) : escape c ++ cs ≠ '"' :: rest := by
  intro h
  -- the character would be the quote itself, whose escape begins with a backslash
  have hread := congrArg unescape h
  rw [unescape_escape] at hread
  obtain ⟨rfl, -⟩ := Prod.mk.inj (Option.some.inj hread)
  cases h

theorem escaped_append_inj {cs ds rest others : List Char}
    (h : cs.flatMap escape ++ '"' :: rest = ds.flatMap escape ++ '"' :: others) :
    cs = ds ∧ rest = others := by
  -- one of the strings ends where the other goes on only if an escape begins with the closing quote
  induction cs generalizing ds with
  | nil =>
    cases ds with
    | nil => exact ⟨rfl, (List.cons.inj h).2⟩
    | cons d ds =>
      rw [List.flatMap_cons, List.append_assoc] at h
      exact absurd h.symm (escape_append_ne d _ _)
  | cons c cs ih =>
    rw [List.flatMap_cons, List.append_assoc] at h
    cases ds with
    | nil => exact absurd h (escape_append_ne c _ _)
    | cons d ds =>
      rw [List.flatMap_cons, List.append_assoc] at h
      obtain ⟨rfl, hbehind⟩ := escape_append_inj h
      obtain ⟨rfl, hrest⟩ := ih hbehind
      exact ⟨rfl, hrest⟩

theorem toList_string (s : String) :
    (string s).toList = '"' :: s.toList.flatMap escape ++ ['"'] := by
  rw [string, String.toList_ofList]

/-- **A string can be read off**, whatever is behind it. -/
theorem string_append_inj {s t : String} {rest others : List Char}
    (h : (string s).toList ++ rest = (string t).toList ++ others) : s = t ∧ rest = others := by
  rw [toList_string, toList_string, List.append_assoc, List.append_assoc] at h
  obtain ⟨hchars, hrest⟩ := escaped_append_inj (List.cons.inj h).2
  exact ⟨String.toList_inj.1 hchars, hrest⟩

/-! ### Values -/

mutual

/-- A value of a dump. -/
inductive Value
  | string (s : String)
  | number (n : Int)
  | truth (b : Bool)
  | object (members : Members)

/-- The members of an object, each a value under a name. -/
inductive Members
  | nil
  | cons (name : String) (value : Value) (rest : Members)

end

mutual

/-- The text of a value that stands inside `depth` objects. -/
def Value.text (depth : Nat) : Value → String
  | .string s => Json.string s
  | .number n => decimal n
  | .truth b => Json.truth b
  | .object members => Json.object depth (members.texts (depth + 1))

/-- The texts of members that stand inside `depth` objects. -/
def Members.texts (depth : Nat) : Members → List String
  | .nil => []
  | .cons name value rest => member name (value.text depth) :: rest.texts depth

end

/-! ### Objects -/

/-- What follows the members in front of the given ones, in an object inside `depth` others. -/
def remainder (depth : Nat) (members : List String) : List Char :=
  match members with
  | [] => (lineBreak depth).toList ++ ['\x7d']
  | first :: others =>
    ',' :: (lineBreak (depth + 1)).toList ++ (first.toList ++ remainder depth others)

theorem toList_lineBreak (depth : Nat) :
    (lineBreak depth).toList = '\n' :: List.replicate (2 * depth) ' ' := by
  rw [lineBreak, String.toList_ofList]

theorem toList_object_nil (depth : Nat) : (object depth []).toList = ['\x7b', '\x7d'] := by
  simp [object]

/-- An object is what follows earlier members, with a brace in the place of the comma. -/
theorem toList_object_cons (depth : Nat) (first : String) (others : List String) :
    ∃ inside, (object depth (first :: others)).toList = '\x7b' :: '\n' :: inside ∧
      remainder depth (first :: others) = ',' :: '\n' :: inside := by
  have hmembers : ∀ first : String,
      (("," ++ lineBreak (depth + 1)).intercalate (first :: others)).toList ++
        ((lineBreak depth).toList ++ ['\x7d']) = first.toList ++ remainder depth others := by
    induction others with
    | nil => intro first; simp [remainder, String.intercalate_singleton]
    | cons second others ih =>
      intro first
      rw [String.intercalate_cons_cons]
      simp only [String.toList_append, List.append_assoc, ih second, remainder]
      simp
  refine ⟨List.replicate (2 * (depth + 1)) ' ' ++ (first.toList ++ remainder depth others), ?_, ?_⟩
  · rw [← hmembers, object]
    · simp [toList_lineBreak]
    · simp
  · rw [remainder, toList_lineBreak]
    rfl

/-! ### Unique readability -/

/-- What stands behind a value in a text: nothing, or a comma or a line break and more. -/
def Closed (rest : List Char) : Prop := ∀ c ∈ rest.head?, c = ',' ∨ c = '\n'

theorem Closed.isDecimal {rest : List Char} (h : Closed rest) :
    ∀ c ∈ rest.head?, isDecimal c = false := by
  intro c hc
  rcases h c hc with rfl | rfl <;> rfl

theorem closed_remainder (depth : Nat) (members : List String) (rest : List Char) :
    Closed (remainder depth members ++ rest) := by
  intro c hc
  cases members with
  | nil =>
    rw [remainder, toList_lineBreak] at hc
    exact Or.inr (Option.mem_some.1 hc).symm
  | cons => exact Or.inl (Option.mem_some.1 hc).symm

/-- The constructors of values. -/
inductive Kind
  | string
  | number
  | truth
  | object

/-- The constructor of a value. -/
def Value.kind : Value → Kind
  | .string _ => .string
  | .number _ => .number
  | .truth _ => .truth
  | .object _ => .object

/-- The constructor of the values that begin with a character. -/
def Kind.ofHead (c : Char) : Kind :=
  if c = '"' then .string
  else if isDecimal c then .number
  else if c = '\x7b' then .object
  else .truth

/-- The first character of a value tells its constructor. -/
theorem Value.exists_toList_text (v : Value) (depth : Nat) :
    ∃ c cs, (v.text depth).toList = c :: cs ∧ Kind.ofHead c = v.kind := by
  cases v with
  | string s => exact ⟨'"', _, toList_string s, rfl⟩
  | number n =>
    obtain ⟨c, cs, hcons, hc⟩ := Numeral.exists_toList_decimal n
    have hquote : c ≠ '"' := by rintro rfl; cases hc
    exact ⟨c, cs, hcons, by simp [Kind.ofHead, hquote, hc, kind]⟩
  | truth b =>
    cases b with
    | false => exact ⟨'f', "alse".toList, by simp [text, Json.truth], rfl⟩
    | true => exact ⟨'t', "rue".toList, by simp [text, Json.truth], rfl⟩
  | object members =>
    cases members with
    | nil => exact ⟨_, _, toList_object_nil depth, rfl⟩
    | cons name value rest =>
      obtain ⟨inside, hobject, -⟩ := toList_object_cons depth
        (member name (value.text (depth + 1))) (rest.texts (depth + 1))
      exact ⟨_, _, hobject, rfl⟩

theorem Value.kind_eq {v w : Value} {depth : Nat} {rest others : List Char}
    (h : (v.text depth).toList ++ rest = (w.text depth).toList ++ others) : v.kind = w.kind := by
  obtain ⟨c, cs, hv, hc⟩ := v.exists_toList_text depth
  obtain ⟨d, ds, hw, hd⟩ := w.exists_toList_text depth
  rw [hv, hw] at h
  rw [← hc, ← hd, (List.cons.inj h).1]

theorem truth_append_inj {a b : Bool} {rest others : List Char}
    (h : (truth a).toList ++ rest = (truth b).toList ++ others) : a = b ∧ rest = others := by
  cases a <;> cases b
  · exact ⟨rfl, List.append_cancel_left h⟩
  · cases (List.cons.inj h).1
  · cases (List.cons.inj h).1
  · exact ⟨rfl, List.append_cancel_left h⟩

/-- Objects that agree in front of something else have the same members in the same texts. -/
theorem remainder_append_eq {depth : Nat} {members items : List String} {rest others : List Char}
    (h : (object depth members).toList ++ rest = (object depth items).toList ++ others) :
    remainder depth members ++ rest = remainder depth items ++ others := by
  cases members with
  | nil =>
    cases items with
    | nil =>
      rw [List.append_cancel_left h]
    | cons first items =>
      obtain ⟨inside, hitems, -⟩ := toList_object_cons depth first items
      rw [hitems, toList_object_nil] at h
      cases h
  | cons first members =>
    obtain ⟨inside, hmembers, hremainder⟩ := toList_object_cons depth first members
    cases items with
    | nil =>
      rw [hmembers, toList_object_nil] at h
      cases h
    | cons second items =>
      obtain ⟨within, hitems, hothers⟩ := toList_object_cons depth second items
      rw [hmembers, hitems] at h
      rw [hremainder, hothers]
      exact congrArg (',' :: ·) (List.cons.inj h).2

theorem member_append (name value : String) (rest : List Char) :
    (member name value).toList ++ rest =
      (string name).toList ++ (':' :: ' ' :: (value.toList ++ rest)) := by
  simp [member, String.toList_append]

mutual

/-- **A value can be read off** if a comma, a line break or nothing is behind it. -/
theorem Value.text_append_inj (depth : Nat) (v w : Value) (rest others : List Char)
    (hrest : Closed rest) (hothers : Closed others)
    (h : (v.text depth).toList ++ rest = (w.text depth).toList ++ others) :
    v = w ∧ rest = others := by
  -- the first characters leave only values of one constructor to be compared
  have hkind := Value.kind_eq h
  cases v <;> cases w <;> try cases hkind
  case string.string s t =>
    obtain ⟨rfl, hsame⟩ := string_append_inj h
    exact ⟨rfl, hsame⟩
  case number.number n k =>
    obtain ⟨rfl, hsame⟩ := Numeral.decimal_append_inj hrest.isDecimal hothers.isDecimal h
    exact ⟨rfl, hsame⟩
  case truth.truth a b =>
    obtain ⟨rfl, hsame⟩ := truth_append_inj h
    exact ⟨rfl, hsame⟩
  case object.object m n =>
    obtain ⟨rfl, hsame⟩ :=
      Members.remainder_append_inj depth m n rest others (remainder_append_eq h)
    exact ⟨rfl, hsame⟩

/-- **The members of an object can be read off**, whatever is behind the object. -/
theorem Members.remainder_append_inj (depth : Nat) (m n : Members) (rest others : List Char)
    (h : remainder depth (m.texts (depth + 1)) ++ rest =
      remainder depth (n.texts (depth + 1)) ++ others) :
    m = n ∧ rest = others := by
  -- an object that ends has a line break where one that goes on has a comma
  cases m with
  | nil =>
    cases n with
    | nil => exact ⟨rfl, List.append_cancel_left h⟩
    | cons =>
      rw [Members.texts, Members.texts, remainder, remainder, toList_lineBreak depth] at h
      cases h
  | cons name value m =>
    cases n with
    | nil =>
      rw [Members.texts, Members.texts, remainder, remainder, toList_lineBreak depth] at h
      cases h
    | cons other item n =>
      simp only [Members.texts, remainder, List.append_assoc, List.cons_append, List.cons.injEq,
        true_and, List.append_cancel_left_eq, member_append] at h
      -- the name is read off up to its closing quote, the value up to what follows the member
      obtain ⟨rfl, hbehind⟩ := string_append_inj h
      have hvalues := (List.cons.inj (List.cons.inj hbehind).2).2
      obtain ⟨rfl, hremainders⟩ := Value.text_append_inj (depth + 1) value item _ _
        (closed_remainder _ _ _) (closed_remainder _ _ _) hvalues
      obtain ⟨rfl, hsame⟩ := Members.remainder_append_inj depth m n rest others hremainders
      exact ⟨rfl, hsame⟩

end

/-- **JSON text stands for one value only.** -/
theorem Value.text_injective {v w : Value} (h : v.text 0 = w.text 0) : v = w := by
  have hnothing : Closed [] := by simp [Closed]
  exact (Value.text_append_inj 0 v w [] [] hnothing hnothing (by rw [h])).1

end Accumulator.Text.Json
