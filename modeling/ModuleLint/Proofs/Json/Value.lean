import Mathlib.Tactic.Common
import ModuleLint.Bytes.Utf8

/-!
JSON texts and what they denote.

The grammar is that of RFC 8259, over bytes: strings may hold every byte above 7F. Which of the
bytes below may stand for themselves in a string is left open, since writers err there; the grammar
allows those from 20 on (`JsonReader.isPlain`). A text is valid if `JsonValue.read?` gives a value.
-/

namespace ModuleLint

inductive JsonValue
  | null
  | bool (b : Bool)
  /-- The number `mantissa` times ten to the `exponent`. -/
  | number (mantissa exponent : Int)
  | string (s : Bytes)
  | array (items : List JsonValue)
  /-- The members in the order of the text. -/
  | object (members : List (Bytes × JsonValue))

/-- Takes a part from the head of a text, or fails. -/
abbrev JsonReader := StateT Bytes Option

namespace JsonReader

def isBlank (b : UInt8) : Bool :=
  [Byte.space, Byte.tab, Byte.lineFeed, Byte.carriageReturn].contains b

def blanks : JsonReader Unit := fun text => some ((), text.dropWhile isBlank)

/-- One of some bytes. -/
def oneOf (bytes : Bytes) : JsonReader UInt8 := fun text =>
  text.head?.bind fun b => if bytes.contains b then some (b, text.tail) else none

/-- A byte that blanks may stand before. -/
def mark (b : UInt8) : JsonReader Unit := do
  blanks
  discard (oneOf [b])

/-! ### Strings -/

/-- A part of a string: a byte, or a code unit of UTF-16 written in hexadecimal digits. -/
inductive Piece
  | byte (b : UInt8)
  | unit (n : Nat)
  deriving DecidableEq, Repr

/-- The bytes that may stand for themselves in a string. -/
def isPlain (b : UInt8) : Bool := 0x20 ≤ b

/-- The bytes that a letter behind a backslash stands for. -/
def letters : List (UInt8 × UInt8) :=
  [(Byte.doubleQuote, Byte.doubleQuote), (Byte.backslash, Byte.backslash),
    (Byte.slash, Byte.slash), (byte 'b', 0x08), (byte 'f', Byte.formFeed),
    (byte 'n', Byte.lineFeed), (byte 'r', Byte.carriageReturn), (byte 't', Byte.tab)]

/-- The number that hexadecimal digits write. -/
def hexNumber? (digits : Bytes) : Option Nat :=
  digits.foldlM (fun n d => (Byte.hexValue? d).map (n * 16 + ·)) 0

/-- One more piece before others. -/
def following (piece : Piece) : Option (List Piece × Bytes) → Option (List Piece × Bytes) :=
  Option.map fun r => (piece :: r.1, r.2)

/-- The rest of a string, up to its closing quote. -/
def pieces (isRaw : UInt8 → Bool) : JsonReader (List Piece)
  | [] => none
  | b :: rest =>
    if b = Byte.doubleQuote then some ([], rest)
    else if b = Byte.backslash then
      match rest with
      | [] => none
      | c :: rest =>
        if c = byte 'u' then
          match rest with
          | d₁ :: d₂ :: d₃ :: d₄ :: rest =>
            (hexNumber? [d₁, d₂, d₃, d₄]).bind fun n => following (.unit n) (pieces isRaw rest)
          | _ => none
        else (letters.lookup c).bind fun v => following (.byte v) (pieces isRaw rest)
    else if isRaw b then following (.byte b) (pieces isRaw rest)
    else none

/-- Whether two code units are one code point. -/
def arePair (high low : Nat) : Bool := high / 0x400 == 0x36 && low / 0x400 == 0x37

/-- The code point of a pair of code units. -/
def ofPair (high low : Nat) : Nat := 0x10000 + high % 0x400 * 0x400 + low % 0x400

/-- One more piece before others, as one with the first of them if the two are a pair. -/
def joining : Piece → List Piece → List Piece
  | .unit high, .unit low :: rest =>
    if arePair high low then .unit (ofPair high low) :: rest else .unit high :: .unit low :: rest
  | piece, rest => piece :: rest

def Piece.text : Piece → Bytes
  | .byte b => [b]
  | .unit n => Utf8.encode n

def string (isRaw : UInt8 → Bool) : JsonReader Bytes := do
  mark Byte.doubleQuote
  return ((← pieces isRaw).foldr joining []).flatMap Piece.text

/-! ### Numbers -/

/-- Decimal digits, at least one. -/
def digits : JsonReader Bytes := fun text =>
  let ds := text.takeWhile Byte.isDigit
  if ds.isEmpty then none else some (ds, text.drop ds.length)

/-- The number that decimal digits write. -/
def natural (ds : Bytes) : Nat := ds.foldl (fun n d => n * 10 + (d - byte '0').toNat) 0

/-- The number with a sign before it. -/
def signed (sign : Option UInt8) (n : Nat) : Int := if sign = some (byte '-') then -n else n

/-- The digits behind a point, if there is one. -/
def fraction : JsonReader Bytes := (do discard (oneOf [Byte.dot]); digits) <|> pure []

/-- The exponent, if there is one. -/
def exponent : JsonReader Int :=
  (do
    discard (oneOf (ascii "eE"))
    let sign ← optional (oneOf (ascii "+-"))
    return signed sign (natural (← digits))) <|>
  pure 0

/-- The rest of a number behind its sign. No other digits follow a zero at its start. -/
def unsigned (sign : Option UInt8) : JsonReader JsonValue := do
  let whole ← digits
  guard (whole.length = 1 ∨ whole.head? ≠ some (byte '0'))
  let behind ← fraction
  let power ← exponent
  return .number (signed sign (natural (whole ++ behind))) (power - behind.length)

def number : JsonReader JsonValue := do unsigned (← optional (oneOf (ascii "-")))

/-! ### Values -/

def literals : List (Bytes × JsonValue) :=
  [(ascii "null", .null), (ascii "true", .bool true), (ascii "false", .bool false)]

def literal : JsonReader JsonValue := fun text =>
  literals.findSome? fun (word, v) =>
    if word.isPrefixOf text then some (v, text.drop word.length) else none

section Lists

variable {α : Type} (item : JsonReader α) (close : UInt8)

/-- At least one and at most so many items, with commas between them, up to a closing mark. -/
def someItems : Nat → JsonReader (List α)
  | 0 => failure
  | most + 1 => do
    let a ← item
    (do mark Byte.comma; return a :: (← someItems most)) <|> (do mark close; return [a])

/-- Items with commas between them, up to a closing mark. Each takes a byte of the text. -/
def items : JsonReader (List α) := fun text =>
  ((do mark close; return []) <|> someItems item close text.length) text

end Lists

/-- A named value. -/
def member (isRaw : UInt8 → Bool) (value : JsonReader JsonValue) :
    JsonReader (Bytes × JsonValue) := do
  let name ← string isRaw
  mark (byte ':')
  return (name, ← value)

/-- A value with less than so many others around it. -/
def value (isRaw : UInt8 → Bool) : Nat → JsonReader JsonValue
  | 0 => failure
  | depth + 1 =>
    (do return .string (← string isRaw)) <|>
    (do mark Byte.openBracket; return .array (← items (value isRaw depth) Byte.closeBracket)) <|>
    (do
      mark Byte.openBrace
      return .object (← items (member isRaw (value isRaw depth)) Byte.closeBrace)) <|>
    (do blanks; literal) <|>
    (do blanks; number)

end JsonReader

/-- The value that a text denotes. Blanks may stand around it. -/
def JsonValue.read? (isRaw : UInt8 → Bool) (text : Bytes) : Option JsonValue := do
  let (v, rest) ← JsonReader.value isRaw text.length text
  if rest.all JsonReader.isBlank then some v else none

end ModuleLint
