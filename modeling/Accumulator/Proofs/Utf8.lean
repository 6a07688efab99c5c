import Accumulator.Text.Utf8
import Mathlib

/-!
# What is UTF-8

The decoder accepts the sequences that the encoder makes, and no others.  A `Sequence` is one to
four bytes that pass the checks of the decoder, with the number of the character that they stand
for.  The encoder makes sequences (`sequence_utf8EncodeChar`), and each of them is made of its
character (`Sequence.encodes`); so bytes are decoded to a text exactly if they are the encoded text
(`decode_eq_ok_iff`).
-/

namespace Accumulator.Text.Utf8

/-! ### The checks of the decoder -/

theorem isContinuation_iff {b : UInt8} :
    isContinuation b = true ↔ 128 ≤ b.toNat ∧ b.toNat ≤ 191 := by
  simp [isContinuation, UInt8.le_iff_toNat_le]

theorem toNat_tail {t : Nat} (h : t < 64) : (UInt8.ofNat (t + 128)).toNat = t + 128 := by
  rw [UInt8.toNat_ofNat', Nat.mod_eq_of_lt (by omega)]

theorem payload_tail {t : Nat} (h : t < 64) : payload (UInt8.ofNat (t + 128)) = t := by
  rw [payload, toNat_tail h]
  omega

theorem isContinuation_tail {t : Nat} (h : t < 64) :
    isContinuation (UInt8.ofNat (t + 128)) = true := by
  rw [isContinuation_iff, toNat_tail h]
  omega

/-- A continuation byte by its payload. -/
theorem exists_tail {b : UInt8} (h : isContinuation b = true) :
    ∃ t < 64, b = UInt8.ofNat (t + 128) := by
  obtain ⟨hlow, hhigh⟩ := isContinuation_iff.1 h
  refine ⟨b.toNat - 128, by omega, ?_⟩
  rw [Nat.sub_add_cancel hlow, UInt8.ofNat_toNat]

theorem continues_iff {lead b : UInt8} :
    continues lead b = true ↔ isContinuation b = true ∧
      (lead.toNat = 224 → 160 ≤ b.toNat) ∧ (lead.toNat = 237 → b.toNat < 160) ∧
      (lead.toNat = 240 → 144 ≤ b.toNat) ∧ (lead.toNat = 244 → b.toNat < 144) := by
  unfold continues
  rw [Bool.and_eq_true]
  refine and_congr_right fun _ => ?_
  simp only [← UInt8.toNat_inj, UInt8.le_iff_toNat_le, UInt8.lt_iff_toNat_lt, UInt8.reduceToNat]
  split
  · simp; omega
  · split
    · simp; omega
    · split
      · simp; omega
      · split
        · simp; omega
        · simp; omega

theorem following_eq (lead : UInt8) : following lead =
    if lead.toNat < 128 then some 0 else if lead.toNat < 194 then none
    else if lead.toNat < 224 then some 1 else if lead.toNat < 240 then some 2
    else if lead.toNat < 245 then some 3 else none := by
  simp [following, UInt8.lt_iff_toNat_lt]

/-- The leads of sequences of each length. -/
theorem following_eq_some_iff {lead : UInt8} {n : Nat} : following lead = some n ↔
    (n = 0 ∧ lead.toNat < 128) ∨ (n = 1 ∧ 194 ≤ lead.toNat ∧ lead.toNat < 224) ∨
    (n = 2 ∧ 224 ≤ lead.toNat ∧ lead.toNat < 240) ∨
    (n = 3 ∧ 240 ≤ lead.toNat ∧ lead.toNat < 245) := by
  rw [following_eq]
  split
  · simp; omega
  · split
    · simp; omega
    · split
      · simp; omega
      · split
        · simp; omega
        · split
          · simp; omega
          · simp; omega

/-! ### Sequences -/

/-- Bytes that pass the checks of the decoder, with the number of the character that they are
decoded to. -/
inductive Sequence : List UInt8 → Nat → Prop
  | one {a : UInt8} (lead : following a = some 0) : Sequence [a] a.toNat
  | two {a b : UInt8} (lead : following a = some 1) (second : continues a b) :
      Sequence [a, b] (a.toNat % 32 * 64 + payload b)
  | three {a b c : UInt8} (lead : following a = some 2) (second : continues a b)
      (third : isContinuation c) :
      Sequence [a, b, c] ((a.toNat % 16 * 64 + payload b) * 64 + payload c)
  | four {a b c d : UInt8} (lead : following a = some 3) (second : continues a b)
      (third : isContinuation c) (fourth : isContinuation d) :
      Sequence [a, b, c, d]
        (((a.toNat % 8 * 64 + payload b) * 64 + payload c) * 64 + payload d)

/-- A sequence is decoded to its character. -/
theorem Sequence.decoded {bytes : List UInt8} {code : Nat} (h : Sequence bytes code)
    (offset : Nat) (rest : List UInt8) : decodeFrom offset (bytes ++ rest) = do
      return Char.ofNat code :: (← decodeFrom (offset + bytes.length) rest) := by
  cases h with
  | one hlead => simp [decodeFrom, hlead]
  | two hlead hsecond => simp [decodeFrom, hlead, hsecond]
  | three hlead hsecond hthird => simp [decodeFrom, hlead, hsecond, hthird]
  | four hlead hsecond hthird hfourth => simp [decodeFrom, hlead, hsecond, hthird, hfourth]

/-- The bytes of a character by its number. -/
theorem utf8EncodeChar_eq {c : Char} {n : Nat} (h : c.toNat = n) : String.utf8EncodeChar c =
    if n ≤ 127 then [UInt8.ofNat n]
    else if n ≤ 2047 then [UInt8.ofNat (n / 64 % 32 + 192), UInt8.ofNat (n % 64 + 128)]
    else if n ≤ 65535 then
      [UInt8.ofNat (n / 4096 % 16 + 224), UInt8.ofNat (n / 64 % 64 + 128),
        UInt8.ofNat (n % 64 + 128)]
    else
      [UInt8.ofNat (n / 262144 % 8 + 240), UInt8.ofNat (n / 4096 % 64 + 128),
        UInt8.ofNat (n / 64 % 64 + 128), UInt8.ofNat (n % 64 + 128)] := by
  subst h
  rfl

/-- The number of a sequence is that of a character, which is encoded as the sequence. -/
theorem Sequence.encodes {bytes : List UInt8} {code : Nat} (h : Sequence bytes code) :
    (Char.ofNat code).toNat = code ∧ String.utf8EncodeChar (Char.ofNat code) = bytes := by
  cases h with
  | @one a hlead =>
    have ha : a.toNat < 128 := by simpa using following_eq_some_iff.1 hlead
    have hcode := (Char.toNat_ofNat a.toNat).trans (if_pos (by omega))
    refine ⟨hcode, ?_⟩
    rw [utf8EncodeChar_eq hcode, if_pos (by omega), UInt8.ofNat_toNat]
  | @two a b hlead hsecond =>
    have ha : 194 ≤ a.toNat ∧ a.toNat < 224 := by simpa using following_eq_some_iff.1 hlead
    obtain ⟨t, ht, rfl⟩ := exists_tail (continues_iff.1 hsecond).1
    rw [payload_tail ht]
    -- the bits of the lead and the payloads are read off the number again
    generalize hn : a.toNat % 32 * 64 + t = n
    have hcode := (Char.toNat_ofNat n).trans (if_pos (by omega))
    refine ⟨hcode, ?_⟩
    have hfirst : n / 64 % 32 + 192 = a.toNat := by omega
    have hrest : n % 64 = t := by omega
    rw [utf8EncodeChar_eq hcode, if_neg (by omega), if_pos (by omega), hfirst, hrest,
      UInt8.ofNat_toNat]
  | @three a b c hlead hsecond hthird =>
    have ha : 224 ≤ a.toNat ∧ a.toNat < 240 := by simpa using following_eq_some_iff.1 hlead
    obtain ⟨hb, hlow, hsurrogate, -, -⟩ := continues_iff.1 hsecond
    obtain ⟨t, ht, rfl⟩ := exists_tail hb
    obtain ⟨u, hu, rfl⟩ := exists_tail hthird
    rw [payload_tail ht, payload_tail hu]
    rw [toNat_tail ht] at hlow hsurrogate
    generalize hn : (a.toNat % 16 * 64 + t) * 64 + u = n
    have hcode := (Char.toNat_ofNat n).trans (if_pos (by omega))
    refine ⟨hcode, ?_⟩
    have hfirst : n / 4096 % 16 + 224 = a.toNat := by omega
    have hsecond : n / 64 % 64 = t := by omega
    have hthird : n % 64 = u := by omega
    rw [utf8EncodeChar_eq hcode, if_neg (by omega), if_neg (by omega), if_pos (by omega), hfirst,
      hsecond, hthird, UInt8.ofNat_toNat]
  | @four a b c d hlead hsecond hthird hfourth =>
    have ha : 240 ≤ a.toNat ∧ a.toNat < 245 := by simpa using following_eq_some_iff.1 hlead
    obtain ⟨hb, -, -, hlow, hhigh⟩ := continues_iff.1 hsecond
    obtain ⟨t, ht, rfl⟩ := exists_tail hb
    obtain ⟨u, hu, rfl⟩ := exists_tail hthird
    obtain ⟨v, hv, rfl⟩ := exists_tail hfourth
    rw [payload_tail ht, payload_tail hu, payload_tail hv]
    rw [toNat_tail ht] at hlow hhigh
    generalize hn : ((a.toNat % 8 * 64 + t) * 64 + u) * 64 + v = n
    have hcode := (Char.toNat_ofNat n).trans (if_pos (by omega))
    refine ⟨hcode, ?_⟩
    have hfirst : n / 262144 % 8 + 240 = a.toNat := by omega
    have hsecond : n / 4096 % 64 = t := by omega
    have hthird : n / 64 % 64 = u := by omega
    have hfourth : n % 64 = v := by omega
    rw [utf8EncodeChar_eq hcode, if_neg (by omega), if_neg (by omega), if_neg (by omega), hfirst,
      hsecond, hthird, hfourth, UInt8.ofNat_toNat]

/-- A character is encoded as a sequence of its number. -/
theorem sequence_utf8EncodeChar (c : Char) : Sequence (String.utf8EncodeChar c) c.toNat := by
  have hvalid : c.toNat < 55296 ∨ 57343 < c.toNat ∧ c.toNat < 1114112 := c.valid
  rw [utf8EncodeChar_eq rfl]
  generalize c.toNat = n at hvalid
  have htail : ∀ k, k % 64 < 64 := fun k => Nat.mod_lt k (by decide)
  have hleads : ∀ k, k < 245 → (UInt8.ofNat k).toNat = k := by
    intro k hk
    rw [UInt8.toNat_ofNat', Nat.mod_eq_of_lt (by omega)]
  split
  · next h =>
    have hlead := hleads n (by omega)
    have hsequence := Sequence.one (following_eq_some_iff.2 (by rw [hlead]; omega))
    rwa [hlead] at hsequence
  · split
    · next h =>
      have hlead := hleads (n / 64 % 32 + 192) (by omega)
      have hsequence := Sequence.two (following_eq_some_iff.2 (by rw [hlead]; omega))
        (continues_iff.2 ⟨isContinuation_tail (htail n), by
          rw [hlead, toNat_tail (htail n)]; omega⟩)
      rw [hlead, payload_tail (htail n)] at hsequence
      have hcode : (n / 64 % 32 + 192) % 32 * 64 + n % 64 = n := by omega
      rwa [hcode] at hsequence
    · split
      · next h =>
        have hlead := hleads (n / 4096 % 16 + 224) (by omega)
        have hsequence := Sequence.three (following_eq_some_iff.2 (by rw [hlead]; omega))
          (continues_iff.2 ⟨isContinuation_tail (htail (n / 64)), by
            rw [hlead, toNat_tail (htail (n / 64))]; omega⟩)
          (isContinuation_tail (htail n))
        rw [hlead, payload_tail (htail (n / 64)), payload_tail (htail n)] at hsequence
        have hcode : ((n / 4096 % 16 + 224) % 16 * 64 + n / 64 % 64) * 64 + n % 64 = n := by omega
        rwa [hcode] at hsequence
      · next h =>
        have hlead := hleads (n / 262144 % 8 + 240) (by omega)
        have hsequence := Sequence.four (following_eq_some_iff.2 (by rw [hlead]; omega))
          (continues_iff.2 ⟨isContinuation_tail (htail (n / 4096)), by
            rw [hlead, toNat_tail (htail (n / 4096))]; omega⟩)
          (isContinuation_tail (htail (n / 64))) (isContinuation_tail (htail n))
        rw [hlead, payload_tail (htail (n / 4096)), payload_tail (htail (n / 64)),
          payload_tail (htail n)] at hsequence
        have hcode : (((n / 262144 % 8 + 240) % 8 * 64 + n / 4096 % 64) * 64 + n / 64 % 64) * 64 +
            n % 64 = n := by omega
        rwa [hcode] at hsequence

/-! ### Texts -/

theorem toList_loop (bytes : ByteArray) (i : Nat) (earlier : List UInt8) :
    ByteArray.toList.loop bytes i earlier = earlier.reverse ++ bytes.data.toList.drop i := by
  fun_induction ByteArray.toList.loop bytes i earlier with
  | case1 i earlier h ih =>
    have hi : i < bytes.data.toList.length := h
    rw [ih, List.drop_eq_getElem_cons hi]
    simp [ByteArray.get!, h]
  | case2 i earlier h =>
    have hi : bytes.data.toList.length ≤ i := Nat.le_of_not_lt h
    rw [List.drop_eq_nil_of_le hi, List.append_nil]

/-- The bytes of a text are those of its characters. -/
theorem encode_ofList (cs : List Char) :
    encode (String.ofList cs) = cs.flatMap String.utf8EncodeChar := by
  rw [encode, String.toUTF8_eq_toByteArray, String.toByteArray_ofList, ByteArray.toList,
    toList_loop]
  exact List.toList_data_toByteArray

/-- What is accepted behind a sequence. -/
theorem Sequence.exists_of_decodeFrom {first rest : List UInt8} {code offset : Nat}
    {cs : List Char} (hfirst : Sequence first code)
    (h : decodeFrom offset (first ++ rest) = .ok cs) :
    ∃ others, cs = Char.ofNat code :: others ∧
      decodeFrom (offset + first.length) rest = .ok others := by
  rw [hfirst.decoded] at h
  cases hrest : decodeFrom (offset + first.length) rest with
  | error error =>
    rw [hrest] at h
    cases h
  | ok others =>
    rw [hrest] at h
    exact ⟨others, (Except.ok.inj h).symm, rfl⟩

/-- What the decoder accepts is empty or begins with a sequence. -/
theorem exists_sequence_of_decodeFrom {offset : Nat} {bytes : List UInt8} {cs : List Char}
    (h : decodeFrom offset bytes = .ok cs) (hne : bytes ≠ []) :
    ∃ first rest code, bytes = first ++ rest ∧ Sequence first code := by
  fun_cases decodeFrom offset bytes with
  | case1 => exact absurd rfl hne
  | case2 a rest hlead => simp [decodeFrom, hlead] at h
  | case3 a rest hlead => exact ⟨[a], rest, _, rfl, .one hlead⟩
  | case4 a n _ hlead => simp [decodeFrom, hlead] at h
  | case5 a n _ hlead b rest hsecond => simp [decodeFrom, hlead, hsecond] at h
  | case6 a b rest hsecond _ _ hlead =>
    exact ⟨[a, b], rest, _, rfl, .two hlead (by simpa using hsecond)⟩
  | case7 a n _ hlead b hsecond hone => simp [decodeFrom, hlead, hsecond, hone] at h
  | case8 a n _ hlead b hsecond hone c rest hthird =>
    simp [decodeFrom, hlead, hsecond, hone, hthird] at h
  | case9 a b hsecond c rest hthird _ _ hlead =>
    exact ⟨[a, b, c], rest, _, rfl, .three hlead (by simpa using hsecond) (by simpa using hthird)⟩
  | case10 a n _ hlead b hsecond hone c hthird htwo =>
    simp [decodeFrom, hlead, hsecond, hone, hthird, htwo] at h
  | case11 a n _ hlead b hsecond hone c hthird htwo d rest hfourth =>
    simp [decodeFrom, hlead, hsecond, hone, hthird, htwo, hfourth] at h
  | case12 a n hn hlead b hsecond hone c hthird htwo d rest hfourth =>
    -- no lead is followed by more than three bytes
    have hpos : n ≠ 0 := hn
    obtain rfl : n = 3 := by
      have := following_eq_some_iff.1 hlead
      omega
    exact ⟨[a, b, c, d], rest, _, rfl,
      .four hlead (by simpa using hsecond) (by simpa using hthird) (by simpa using hfourth)⟩

/-- Bytes that are decoded to a text are the bytes of its characters. -/
theorem eq_flatMap_of_decodeFrom {offset : Nat} {bytes : List UInt8} {cs : List Char}
    (h : decodeFrom offset bytes = .ok cs) : bytes = cs.flatMap String.utf8EncodeChar := by
  -- each character takes the sequence off that the bytes begin with
  induction cs generalizing offset bytes with
  | nil =>
    cases bytes with
    | nil => rfl
    | cons byte bytes =>
      obtain ⟨first, rest, code, hsplit, hfirst⟩ :=
        exists_sequence_of_decodeFrom h (List.cons_ne_nil byte bytes)
      rw [hsplit] at h
      obtain ⟨others, hcons, -⟩ := hfirst.exists_of_decodeFrom h
      cases hcons
  | cons c cs ih =>
    have hne : bytes ≠ [] := by
      rintro rfl
      rw [decodeFrom] at h
      cases h
    obtain ⟨first, rest, code, rfl, hfirst⟩ := exists_sequence_of_decodeFrom h hne
    obtain ⟨others, hcons, hrest⟩ := hfirst.exists_of_decodeFrom h
    obtain ⟨rfl, rfl⟩ := List.cons.inj hcons
    rw [List.flatMap_cons, hfirst.encodes.2, ← ih hrest]

theorem decodeFrom_flatMap (offset : Nat) (cs : List Char) :
    decodeFrom offset (cs.flatMap String.utf8EncodeChar) = .ok cs := by
  induction cs generalizing offset with
  | nil => rw [List.flatMap_nil, decodeFrom]
  | cons c cs ih =>
    rw [List.flatMap_cons, (sequence_utf8EncodeChar c).decoded, ih, Char.ofNat_toNat]
    rfl

/-- **Bytes are decoded to a text exactly if they are the encoded text.** -/
theorem decode_eq_ok_iff {bytes : List UInt8} {cs : List Char} :
    decode bytes = .ok cs ↔ bytes = encode (String.ofList cs) := by
  rw [encode_ofList]
  constructor
  · exact eq_flatMap_of_decodeFrom
  · rintro rfl
    exact decodeFrom_flatMap 0 cs

theorem decode_encode (s : String) : decode (encode s) = .ok s.toList := by
  rw [decode_eq_ok_iff, String.ofList_toList]

end Accumulator.Text.Utf8
