/-!
Texts as lists of bytes.

Source files, messages and paths are byte strings: they need not be valid UTF-8, and every length,
column and order counts bytes. Letters, digits and blanks are those of ASCII.
-/

namespace ModuleLint

/-- A text, kept as its bytes. -/
abbrev Bytes := List UInt8

/-- The byte of an ASCII character. -/
def byte (c : Char) : UInt8 := c.toNat.toUInt8

/-- The bytes of an ASCII text. -/
def ascii (s : String) : Bytes := s.toList.map byte

namespace Byte

@[match_pattern] abbrev tab : UInt8 := 0x09
@[match_pattern] abbrev lineFeed : UInt8 := 0x0A
@[match_pattern] abbrev verticalTab : UInt8 := 0x0B
@[match_pattern] abbrev formFeed : UInt8 := 0x0C
@[match_pattern] abbrev carriageReturn : UInt8 := 0x0D
@[match_pattern] abbrev space : UInt8 := 0x20
@[match_pattern] abbrev doubleQuote : UInt8 := 0x22
@[match_pattern] abbrev hash : UInt8 := 0x23
@[match_pattern] abbrev dollar : UInt8 := 0x24
@[match_pattern] abbrev singleQuote : UInt8 := 0x27
@[match_pattern] abbrev star : UInt8 := 0x2A
@[match_pattern] abbrev comma : UInt8 := 0x2C
@[match_pattern] abbrev dot : UInt8 := 0x2E
@[match_pattern] abbrev slash : UInt8 := 0x2F
@[match_pattern] abbrev equals : UInt8 := 0x3D
@[match_pattern] abbrev openBracket : UInt8 := 0x5B
@[match_pattern] abbrev backslash : UInt8 := 0x5C
@[match_pattern] abbrev closeBracket : UInt8 := 0x5D
@[match_pattern] abbrev backtick : UInt8 := 0x60
@[match_pattern] abbrev openBrace : UInt8 := 0x7B
@[match_pattern] abbrev closeBrace : UInt8 := 0x7D

def isDigit (b : UInt8) : Bool := byte '0' ≤ b && b ≤ byte '9'

def isLower (b : UInt8) : Bool := byte 'a' ≤ b && b ≤ byte 'z'

def isUpper (b : UInt8) : Bool := byte 'A' ≤ b && b ≤ byte 'Z'

/-- The byte with an ASCII capital made small; every other byte stays. -/
def toLower (b : UInt8) : UInt8 := if isUpper b then b + 32 else b

/-- The byte of a digit below sixteen, letters small. -/
def ofDigit (n : Nat) : UInt8 := byte (Nat.digitChar n)

/-- The value of a hexadecimal digit, in either case. -/
def hexValue? (b : UInt8) : Option Nat :=
  if isDigit b then some (b - byte '0').toNat
  else if byte 'a' ≤ b && b ≤ byte 'f' then some ((b - byte 'a').toNat + 10)
  else if byte 'A' ≤ b && b ≤ byte 'F' then some ((b - byte 'A').toNat + 10)
  else none

end Byte

namespace Bytes

/-- The decimal digits of a number. -/
def ofNat (n : Nat) : Bytes := (Nat.toDigits 10 n).map byte

/-- The decimal digits of a number, after a minus sign if it is negative. -/
def ofInt : Int → Bytes
  | .ofNat n => ofNat n
  | .negSucc n => byte '-' :: ofNat (n + 1)

def toLower (s : Bytes) : Bytes := s.map Byte.toLower

/-- `s` in at least `width` bytes: `fill` stands before it as often as needed. -/
def padLeft (width : Nat) (fill : UInt8) (s : Bytes) : Bytes :=
  List.replicate (width - s.length) fill ++ s

/-- `s` in at least `width` bytes: `fill` follows it as often as needed. -/
def padRight (width : Nat) (fill : UInt8) (s : Bytes) : Bytes :=
  s ++ List.replicate (width - s.length) fill

def dropEndWhile (p : UInt8 → Bool) (s : Bytes) : Bytes := (s.reverse.dropWhile p).reverse

/-- The part before the first `sep` and the part after it, if there is one. -/
def cut? (sep : UInt8) : Bytes → Option (Bytes × Bytes)
  | [] => none
  | b :: rest =>
    if b = sep then some ([], rest) else (cut? sep rest).map fun (l, r) => (b :: l, r)

/-- The lines of a text read to its end: a final line feed ends the last line and starts none. -/
def lines (s : Bytes) : List Bytes :=
  match (s.splitOn Byte.lineFeed).reverse with
  | [] :: before => before.reverse
  | _ => s.splitOn Byte.lineFeed

/-- The texts joined with `sep` between neighbours. -/
def join (sep : Bytes) (parts : List Bytes) : Bytes := sep.intercalate parts

end Bytes

end ModuleLint
