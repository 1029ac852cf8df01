import ModuleLint.Token.Lexeme

/-!
Numbers: decimal with fraction and exponent, or digits in base 16, 8 or 2 after `0x`, `0o` or `0b`.

A single `_` may stand between digits and an `n` may follow. No name may start right after a number.
-/

namespace ModuleLint.Lexeme

def isBinaryDigit (b : UInt8) : Bool := b == byte '0' || b == byte '1'

def isOctalDigit (b : UInt8) : Bool := byte '0' ≤ b && b ≤ byte '7'

def isHexDigit (b : UInt8) : Bool := (Byte.hexValue? b).isSome

/-- The digits of the base that `0x`, `0o` or `0b`, in either case, announces. -/
def radix? : Bytes → Option (UInt8 → Bool)
  | z :: b :: _ =>
    if z ≠ byte '0' then none
    else if b = byte 'x' ∨ b = byte 'X' then some isHexDigit
    else if b = byte 'o' ∨ b = byte 'O' then some isOctalDigit
    else if b = byte 'b' ∨ b = byte 'B' then some isBinaryDigit
    else none
  | _ => none

/-- Whether the first byte of a text has a property. -/
def headIs (p : UInt8 → Bool) (text : Bytes) : Bool := text.head?.any p

/-- The number of digits at the head of a text, with each `_` that a digit follows. -/
def digitRun (isDigit : UInt8 → Bool) : Bytes → Nat
  | [] => 0
  | b :: rest =>
    if isDigit b || (b == byte '_' && headIs isDigit rest) then digitRun isDigit rest + 1 else 0

/-- The size of a fraction: a dot, unless another dot follows it, and digits if there are any. -/
def fractionRun : Bytes → Nat
  | [] => 0
  | b :: rest =>
    if b = Byte.dot ∧ ¬ headIs (· == Byte.dot) rest then digitRun Byte.isDigit rest + 1 else 0

/-- The size of an exponent: `e`, a sign or none, and at least one digit. -/
def exponentRun : Bytes → Nat
  | [] => 0
  | e :: rest =>
    let sign := if headIs (fun b => b == byte '+' || b == byte '-') rest then 1 else 0
    if (e = byte 'e' ∨ e = byte 'E') ∧ headIs Byte.isDigit (rest.drop sign) then
      digitRun Byte.isDigit (rest.drop sign) + sign + 1
    else 0

/-- The size of a number in decimal notation. -/
def decimalRun (text : Bytes) : Nat :=
  let whole := digitRun Byte.isDigit text
  let fraction := whole + fractionRun (text.drop whole)
  fraction + exponentRun (text.drop fraction)

/-- The number whose digits are the first `size` bytes of a text. -/
def numberOfSize (text : Bytes) (size : Nat) : Lexeme :=
  let size := if headIs (· == byte 'n') (text.drop size) then size + 1 else size
  let rest := text.drop size
  if headIs startsName rest then wrong .nameAfterNumber (size + nameRun rest)
  else plain .number size

/-- The number at the head of a text that starts with a digit, or with a dot and a digit. -/
def number (text : Bytes) : Lexeme :=
  match radix? text with
  | none => numberOfSize text (decimalRun text)
  | some isDigit =>
    if headIs isDigit (text.drop 2) then numberOfSize text (2 + digitRun isDigit (text.drop 2))
    else wrong .missingDigits 2

end ModuleLint.Lexeme
