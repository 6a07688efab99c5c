/-!
# UTF-8

`decode` reads a sequence of bytes as UTF-8 text.  A sequence that is not UTF-8 is refused with the
offset of the first byte of the offending sequence and one of three reasons:

* the byte starts no sequence;
* a byte that should continue the sequence does not, or would make it overlong, a surrogate or too
  large;
* the bytes end inside a sequence.
-/

namespace Accumulator.Text

/-- Why bytes are not UTF-8. -/
inductive Utf8Defect
  | invalidStart
  | invalidContinuation
  | unexpectedEnd
  deriving DecidableEq, Repr

/-- The wording of a defect. -/
def Utf8Defect.reason : Utf8Defect → String
  | .invalidStart => "invalid start byte"
  | .invalidContinuation => "invalid continuation byte"
  | .unexpectedEnd => "unexpected end of data"

/-- Where and why bytes are not UTF-8. -/
structure Utf8Error where
  /-- The offset of the first byte of the offending sequence. -/
  offset : Nat
  defect : Utf8Defect
  deriving DecidableEq, Repr

namespace Utf8

/-- A byte of the form `10xxxxxx`. -/
def isContinuation (b : UInt8) : Bool :=
  0x80 ≤ b && b ≤ 0xBF

/-- The six payload bits of a continuation byte. -/
def payload (b : UInt8) : Nat :=
  b.toNat % 64

/-- Whether `b` may come second after `lead`.  Four leads narrow the range: `E0` and `F0` exclude
overlong forms, `ED` the surrogates and `F4` what lies above the last code point. -/
def continues (lead b : UInt8) : Bool :=
  isContinuation b &&
    (if lead = 0xE0 then 0xA0 ≤ b
    else if lead = 0xED then b < 0xA0
    else if lead = 0xF0 then 0x90 ≤ b
    else if lead = 0xF4 then b < 0x90
    else true)

/-- How many bytes follow a lead byte; `none` for a byte that leads nothing. -/
def following (lead : UInt8) : Option Nat :=
  if lead < 0x80 then some 0
  else if lead < 0xC2 then none
  else if lead < 0xE0 then some 1
  else if lead < 0xF0 then some 2
  else if lead < 0xF5 then some 3
  else none

/-- The text of `bytes`, whose first byte stands at `offset`. -/
def decodeFrom (offset : Nat) (bytes : List UInt8) : Except Utf8Error (List Char) :=
  match bytes with
  | [] => .ok []
  | a :: rest =>
    match following a with
    | none => .error ⟨offset, .invalidStart⟩
    | some 0 => do
      return Char.ofNat a.toNat :: (← decodeFrom (offset + 1) rest)
    | some n =>
      match rest with
      | [] => .error ⟨offset, .unexpectedEnd⟩
      | b :: rest =>
        if continues a b = false then .error ⟨offset, .invalidContinuation⟩
        else if n = 1 then do
          let code := a.toNat % 32 * 64 + payload b
          return Char.ofNat code :: (← decodeFrom (offset + 2) rest)
        else
          match rest with
          | [] => .error ⟨offset, .unexpectedEnd⟩
          | c :: rest =>
            if isContinuation c = false then .error ⟨offset, .invalidContinuation⟩
            else if n = 2 then do
              let code := (a.toNat % 16 * 64 + payload b) * 64 + payload c
              return Char.ofNat code :: (← decodeFrom (offset + 3) rest)
            else
              match rest with
              | [] => .error ⟨offset, .unexpectedEnd⟩
              | d :: rest =>
                if isContinuation d = false then .error ⟨offset, .invalidContinuation⟩
                else do
                  let code := ((a.toNat % 8 * 64 + payload b) * 64 + payload c) * 64 + payload d
                  return Char.ofNat code :: (← decodeFrom (offset + 4) rest)

/-- The text that bytes stand for. -/
def decode (bytes : List UInt8) : Except Utf8Error (List Char) :=
  decodeFrom 0 bytes

/-- The bytes that stand for a text. -/
def encode (s : String) : List UInt8 :=
  s.toUTF8.toList

end Utf8

end Accumulator.Text
