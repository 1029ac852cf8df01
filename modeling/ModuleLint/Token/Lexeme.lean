import ModuleLint.Token.Basic

/-!
The reading of one token at the head of a text.

A `Lexeme` says how many bytes belong to the token and what it is; bytes, value and spans follow
from it and the text. Identifiers, keywords, punctuators and regular expressions are read here.
-/

namespace ModuleLint

/-- What was read at the head of a text. -/
structure Lexeme where
  kind : TokenKind
  size : Nat
  /-- What the token denotes, if that is not its own bytes. -/
  value : Option Bytes
  /-- The errors in it, each with the bytes read when it was noticed. -/
  errors : List (LexicalError × Nat)
  deriving DecidableEq, Repr

namespace Lexeme

/-- A token that stands for its own bytes. -/
def plain (kind : TokenKind) (size : Nat) : Lexeme := ⟨kind, size, none, []⟩

/-- A token that could not be read. -/
def wrong (error : LexicalError) (size : Nat) : Lexeme := ⟨.error, size, none, [(error, size)]⟩

/-! ### Names -/

/-- Letters, `_`, `$` and every byte outside ASCII. -/
def startsName (b : UInt8) : Bool :=
  Byte.isLower b || Byte.isUpper b || b == byte '_' || b == Byte.dollar || 0x80 ≤ b

def continuesName (b : UInt8) : Bool := startsName b || Byte.isDigit b

/-- The number of bytes at the head of a text that can continue a name. -/
def nameRun (text : Bytes) : Nat := (text.takeWhile continuesName).length

/-- A name reaches as far as its bytes can; some names are keywords. -/
def name (text : Bytes) : Lexeme :=
  let size := nameRun text
  plain ((TokenKind.keyword? (text.take size)).getD .identifier) size

/-! ### Punctuators -/

/-- Whether a character stands at an index of a text. -/
def peek (n : Nat) (c : Char) (text : Bytes) : Bool := text[n]? == some (byte c)

/-- A punctuator is told by its first byte and the bytes behind it, which are looked at one after
another as long as they go on with it; a byte that starts none is an error. -/
def punctuator (b : UInt8) (rest : Bytes) : Lexeme :=
  if b = byte '(' then plain .lparen 1
  else if b = byte ')' then plain .rparen 1
  else if b = byte '\x7b' then plain .lbrace 1
  else if b = byte '\x7d' then plain .rbrace 1
  else if b = byte '[' then plain .lbracket 1
  else if b = byte ']' then plain .rbracket 1
  else if b = byte ';' then plain .semi 1
  else if b = byte ',' then plain .comma 1
  else if b = byte ':' then plain .colon 1
  else if b = byte '~' then plain .tilde 1
  else if b = byte '.' then
    if peek 0 '.' rest && peek 1 '.' rest then plain .ellipsis 3
    else plain .dot 1
  else if b = byte '?' then
    if peek 0 '?' rest then plain .questionQuestion 2
    else plain .question 1
  else if b = byte '=' then
    if peek 0 '>' rest then plain .arrow 2
    else if peek 0 '=' rest then
      if peek 1 '=' rest then plain .strictEq 3
      else plain .eq 2
    else plain .assign 1
  else if b = byte '!' then
    if peek 0 '=' rest then
      if peek 1 '=' rest then plain .strictNe 3
      else plain .ne 2
    else plain .bang 1
  else if b = byte '+' then
    if peek 0 '+' rest then plain .plusPlus 2
    else if peek 0 '=' rest then plain .plusAssign 2
    else plain .plus 1
  else if b = byte '-' then
    if peek 0 '-' rest then plain .minusMinus 2
    else if peek 0 '=' rest then plain .minusAssign 2
    else plain .minus 1
  else if b = byte '*' then
    if peek 0 '*' rest then
      if peek 1 '=' rest then plain .starStarAssign 3
      else plain .starStar 2
    else if peek 0 '=' rest then plain .starAssign 2
    else plain .star 1
  else if b = byte '/' then
    if peek 0 '=' rest then plain .slashAssign 2
    else plain .slash 1
  else if b = byte '%' then
    if peek 0 '=' rest then plain .percentAssign 2
    else plain .percent 1
  else if b = byte '<' then
    if peek 0 '<' rest then
      if peek 1 '=' rest then plain .shlAssign 3
      else plain .shl 2
    else if peek 0 '=' rest then plain .le 2
    else plain .lt 1
  else if b = byte '>' then
    if peek 0 '>' rest then
      if peek 1 '>' rest then
        if peek 2 '=' rest then plain .ushrAssign 4
        else plain .ushr 3
      else if peek 1 '=' rest then plain .shrAssign 3
      else plain .shr 2
    else if peek 0 '=' rest then plain .ge 2
    else plain .gt 1
  else if b = byte '&' then
    if peek 0 '&' rest then plain .andAnd 2
    else if peek 0 '=' rest then plain .bitAndAssign 2
    else plain .bitAnd 1
  else if b = byte '|' then
    if peek 0 '|' rest then plain .orOr 2
    else if peek 0 '=' rest then plain .bitOrAssign 2
    else plain .bitOr 1
  else if b = byte '^' then
    if peek 0 '=' rest then plain .bitXorAssign 2
    else plain .bitXor 1
  else wrong (.unexpected b) 1

/-! ### Regular expressions -/

/-- The rest of a regular expression after `read` bytes of it. A slash in a bracketed class or after
a backslash does not end it. -/
def regexFrom (read : Nat) (inClass : Bool) : Bytes → Lexeme
  | [] => wrong .unterminatedRegex read
  | b :: rest =>
    if b = Byte.lineFeed then wrong .unterminatedRegex read
    else if b = Byte.backslash then
      match rest with
      | [] => wrong .unterminatedRegex (read + 1)
      | c :: rest =>
        if c = Byte.lineFeed then wrong .unterminatedRegex (read + 1)
        else regexFrom (read + 2) inClass rest
    else if b = Byte.openBracket then regexFrom (read + 1) true rest
    else if b = Byte.closeBracket then regexFrom (read + 1) false rest
    else if b = Byte.slash ∧ ¬ inClass then plain .regex (read + 1 + nameRun rest)
    else regexFrom (read + 1) inClass rest

/-- A regular expression with its flags, whose opening slash stands before `rest`. -/
def regex (rest : Bytes) : Lexeme := regexFrom 1 false rest

/-- Whether a slash after a token of this kind divides: the token ends an operand. -/
def endsOperand : TokenKind → Bool
  | .identifier | .number | .string | .template | .regex
  | .kwThis | .kwSuper | .kwNull | .kwTrue | .kwFalse
  | .rparen | .rbracket | .rbrace | .plusPlus | .minusMinus => true
  | _ => false

end Lexeme

end ModuleLint
