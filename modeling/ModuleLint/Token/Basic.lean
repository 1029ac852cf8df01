import ModuleLint.Source
import ModuleLint.Token.Kind

/-!
Tokens, and what can be wrong with the text of one.
-/

namespace ModuleLint

structure Token where
  kind : TokenKind
  span : Span
  /-- The bytes of the token in its text. -/
  lexeme : Bytes
  /-- The lexeme, or for a string or template what it denotes. -/
  value : Bytes
  /-- A line feed stands between this token and the one before it. -/
  newlineBefore : Bool
  deriving DecidableEq, Repr, Inhabited

/-- Identifiers and keywords; both may name a property. -/
def TokenKind.isName (k : TokenKind) : Bool := k == .identifier || k.isKeyword

/-- The causes for which a text cannot be read as tokens. -/
inductive LexicalError
  | unterminatedComment
  | unterminatedString
  | unterminatedTemplate
  | templateSubstitution
  | unterminatedRegex
  | hexEscape
  | unicodeEscape
  | missingDigits
  | nameAfterNumber
  | unexpected (b : UInt8)
  deriving DecidableEq, Repr

def LexicalError.message : LexicalError → Bytes
  | .unterminatedComment => ascii "unterminated block comment"
  | .unterminatedString => ascii "unterminated string literal"
  | .unterminatedTemplate => ascii "unterminated template literal"
  | .templateSubstitution => ascii "template substitutions are not supported"
  | .unterminatedRegex => ascii "unterminated regular expression"
  | .hexEscape => ascii "invalid hexadecimal escape sequence"
  | .unicodeEscape => ascii "invalid unicode escape sequence"
  | .missingDigits => ascii "missing digits after numeric prefix"
  | .nameAfterNumber => ascii "identifier starts immediately after numeric literal"
  | .unexpected b => ascii "unexpected character '" ++ [b] ++ ascii "'"

/-- An error at the part of a text that it was found in. -/
structure LexicalFault where
  error : LexicalError
  span : Span
  deriving DecidableEq, Repr

end ModuleLint
