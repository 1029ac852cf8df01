import ModuleLint.Bytes.Utf8
import ModuleLint.Token.Number

/-!
Quoted literals: strings between single or double quotes, and templates between backticks.

An escape stands for the UTF-8 encoding of a code point or, before a line end, for nothing. A wrong
escape is recorded and adds nothing to the value; reading goes on behind it. A string ends at its
quote and fails at a line feed. A template may span lines but holds no substitutions.
-/

namespace ModuleLint.Lexeme

/-- What follows a backslash: its size, the bytes it stands for, and whether it is wrong. -/
structure Escape where
  size : Nat
  value : Bytes
  error : Option LexicalError
  deriving DecidableEq, Repr

namespace Escape

def right (size : Nat) (value : Bytes) : Escape := ⟨size, value, none⟩

def wrong (error : LexicalError) (size : Nat) : Escape := ⟨size, [], some error⟩

/-- `xHH`, whose `x` stands before the text. -/
def hex : Bytes → Escape
  | a :: b :: _ =>
    match Byte.hexValue? a, Byte.hexValue? b with
    | some hi, some lo => right 3 (Utf8.encode (hi * 16 + lo))
    | _, _ => wrong .hexEscape 1
  | _ => wrong .hexEscape 1

/-- The digits of `uHHHH` after `read` bytes, `missing` digits before its end. -/
def fixed (read value : Nat) : Nat → Bytes → Escape
  | 0, _ => right read (Utf8.encode value)
  | missing + 1, text =>
    match text.head?.bind Byte.hexValue? with
    | some d => fixed (read + 1) (value * 16 + d) missing text.tail
    | none => wrong .unicodeEscape read

/-- The digits of `u{H..H}` after `read` bytes, of which at most `room` may follow. A byte that is
no digit, or one too many, belongs to the wrong escape. At the end of the text nothing is read. -/
def braced (read value : Nat) : Nat → Bytes → Escape
  | _, [] => right read []
  | room, b :: rest =>
    if b = Byte.closeBrace then right (read + 1) (Utf8.encode value)
    else
      match Byte.hexValue? b, room with
      | some d, room + 1 => braced (read + 1) (value * 16 + d) room rest
      | _, _ => wrong .unicodeEscape (read + 1)

/-- The single letters that stand for control characters. -/
def letters : List (UInt8 × UInt8) :=
  [(byte 'n', Byte.lineFeed), (byte 't', Byte.tab), (byte 'r', Byte.carriageReturn),
    (byte 'b', 0x08), (byte 'f', Byte.formFeed), (byte 'v', Byte.verticalTab), (byte '0', 0x00)]

/-- The escape after a backslash. Any byte without a meaning of its own stands for itself. -/
def read : Bytes → Escape
  | [] => right 0 []
  | b :: rest =>
    if b = Byte.lineFeed then right 1 []
    else if b = Byte.carriageReturn then
      right (if headIs (· == Byte.lineFeed) rest then 2 else 1) []
    else if b = byte 'x' then hex rest
    else if b = byte 'u' then
      if headIs (· == Byte.openBrace) rest then braced 2 0 6 rest.tail else fixed 1 0 4 rest
    else right 1 [(letters.lookup b).getD b]

end Escape

/-- How a literal is quoted. -/
inductive Quote
  | single
  | double
  | template
  deriving DecidableEq, Repr

namespace Quote

/-- The byte that opens and closes the literal. -/
def mark : Quote → UInt8
  | .single => Byte.singleQuote
  | .double => Byte.doubleQuote
  | .template => Byte.backtick

/-- The quote that a byte opens. -/
def ofByte? (b : UInt8) : Option Quote := [single, double, template].find? (·.mark == b)

def kind : Quote → TokenKind
  | .template => .template
  | _ => .string

/-- The error of a literal that is not closed. -/
def unterminated : Quote → LexicalError
  | .template => .unterminatedTemplate
  | _ => .unterminatedString

end Quote

/-- The literal with an escape, or a byte that stands for itself, before its rest. -/
def following (e : Escape) (size : Nat) (rest : Lexeme) : Lexeme :=
  { rest with
    value := rest.value.map (e.value ++ ·)
    errors := (e.error.map (·, size)).toList ++ rest.errors }

/-- The rest of a quoted literal after `read` bytes of it. -/
def quotedFrom (q : Quote) (read : Nat) : Bytes → Lexeme
  | [] => wrong q.unterminated read
  | b :: rest =>
    if b = q.mark then ⟨q.kind, read + 1, some [], []⟩
    else if q ≠ .template ∧ b = Byte.lineFeed then wrong q.unterminated read
    else if b = Byte.backslash then
      let e := Escape.read rest
      let read := read + 1 + e.size
      following e read (quotedFrom q read (rest.drop e.size))
    else if q = .template ∧ b = Byte.dollar ∧ headIs (· == Byte.openBrace) rest then
      let skipped := (rest.takeWhile (· != q.mark)).length
      wrong .templateSubstitution (read + 1 + (rest.take (skipped + 1)).length)
    else following (.right 1 [b]) (read + 1) (quotedFrom q (read + 1) rest)
termination_by text => text.length
decreasing_by all_goals (simp only [List.length_drop, List.length_cons]; omega)

/-- The quoted literal whose opening mark stands before `rest`. -/
def quoted (q : Quote) (rest : Bytes) : Lexeme := quotedFrom q 1 rest

end ModuleLint.Lexeme
