import ModuleLint.Bytes

/-!
Code points as UTF-8.

`encode` writes a code point as one to four bytes. It is the encoding of RFC 3629 on Unicode scalar
values, and the same bit layout carries surrogates and everything below 2^24, which escapes in a
source text can name too. `isValid` accepts exactly the encodings of scalar values.
-/

namespace ModuleLint.Utf8

/-- A continuation byte with the six low bits of `n`. -/
def continuation (n : Nat) : UInt8 := (0x80 ||| (n &&& 0x3F)).toUInt8

/-- The bytes of a code point below 2^24. -/
def encode (cp : Nat) : Bytes :=
  if cp < 0x80 then [cp.toUInt8]
  else if cp < 0x800 then [(0xC0 ||| cp >>> 6).toUInt8, continuation cp]
  else if cp < 0x10000 then
    [(0xE0 ||| cp >>> 12).toUInt8, continuation (cp >>> 6), continuation cp]
  else
    [(0xF0 ||| cp >>> 18).toUInt8, continuation (cp >>> 12), continuation (cp >>> 6),
      continuation cp]

def isContinuation (b : UInt8) : Bool := 0x80 ≤ b && b ≤ 0xBF

/-- Whether two bytes start a scalar value of three bytes: no overlong form, no surrogate. -/
def startsThree (a b : UInt8) : Bool :=
  (a == 0xE0 && 0xA0 ≤ b && b ≤ 0xBF) || (a == 0xED && 0x80 ≤ b && b ≤ 0x9F) ||
    (0xE1 ≤ a && a ≤ 0xEF && a != 0xED && isContinuation b)

/-- Whether two bytes start a scalar value of four bytes: no overlong form, none above 10FFFF. -/
def startsFour (a b : UInt8) : Bool :=
  (a == 0xF0 && 0x90 ≤ b && b ≤ 0xBF) || (a == 0xF4 && 0x80 ≤ b && b ≤ 0x8F) ||
    (0xF1 ≤ a && a ≤ 0xF3 && isContinuation b)

/-- Whether the bytes are a concatenation of encoded scalar values. -/
def isValid : Bytes → Bool
  | [] => true
  | a :: rest =>
    if a < 0x80 then isValid rest
    else if 0xC2 ≤ a && a ≤ 0xDF then
      match rest with
      | b :: rest => isContinuation b && isValid rest
      | [] => false
    else if a < 0xF0 then
      match rest with
      | b :: c :: rest => startsThree a b && isContinuation c && isValid rest
      | _ => false
    else
      match rest with
      | b :: c :: d :: rest =>
        startsFour a b && isContinuation c && isContinuation d && isValid rest
      | _ => false

end ModuleLint.Utf8
