import ModuleLint.Token.Basic

/-!
The causes for which a text is no script, with their codes and messages.

A message that names what was expected also names the kind of the token found in its place.
-/

namespace ModuleLint

/-- What the grammar asks for at a place. -/
inductive Expectation
  | expression | closingParen | conditionalColon | propertyAfterDot | indexEnd | argumentsEnd
  | arrayEnd | objectEnd | propertyName | computedKeyEnd | computedKeyColon
  | bindingName | restName | objectPatternEnd | arrayPatternEnd
  | functionName | parameters | parametersEnd | arrow
  | className | classBody | classEnd
  | block | blockEnd | variableName
  | ifCondition | whileCondition | conditionEnd | doWhile
  | forHead | forSemicolon | forHeadEnd
  | switchValue | switchValueEnd | switchBody | switchEnd | caseOrDefault | caseColon
  | catchEnd | handler
  deriving DecidableEq, Repr

def Expectation.message : Expectation → Bytes
  | .expression => ascii "expected expression"
  | .closingParen => ascii "expected ')'"
  | .conditionalColon => ascii "expected ':' in conditional expression"
  | .propertyAfterDot => ascii "expected property name after '.'"
  | .indexEnd => ascii "expected ']' after index"
  | .argumentsEnd => ascii "expected ')' after arguments"
  | .arrayEnd => ascii "expected ']' to end array literal"
  | .objectEnd => ascii "expected '\x7d' to end object literal"
  | .propertyName => ascii "expected property name"
  | .computedKeyEnd => ascii "expected ']' after computed key"
  | .computedKeyColon => ascii "expected ':' after computed key"
  | .bindingName => ascii "expected binding name"
  | .restName => ascii "expected name after '...'"
  | .objectPatternEnd => ascii "expected '\x7d' to end object pattern"
  | .arrayPatternEnd => ascii "expected ']' to end array pattern"
  | .functionName => ascii "expected function name"
  | .parameters => ascii "expected '(' before parameters"
  | .parametersEnd => ascii "expected ')' after parameters"
  | .arrow => ascii "expected '=>'"
  | .className => ascii "expected class name"
  | .classBody => ascii "expected '\x7b' to begin class body"
  | .classEnd => ascii "expected '\x7d' to end class body"
  | .block => ascii "expected '\x7b'"
  | .blockEnd => ascii "expected '\x7d'"
  | .variableName => ascii "expected variable name"
  | .ifCondition => ascii "expected '(' after 'if'"
  | .whileCondition => ascii "expected '(' after 'while'"
  | .conditionEnd => ascii "expected ')' after condition"
  | .doWhile => ascii "expected 'while' after do body"
  | .forHead => ascii "expected '(' after 'for'"
  | .forSemicolon => ascii "expected ';' in for statement"
  | .forHeadEnd => ascii "expected ')' in for statement"
  | .switchValue => ascii "expected '(' after 'switch'"
  | .switchValueEnd => ascii "expected ')' after switch value"
  | .switchBody => ascii "expected '\x7b' to begin switch body"
  | .switchEnd => ascii "expected '\x7d' to end switch body"
  | .caseOrDefault => ascii "expected 'case' or 'default'"
  | .caseColon => ascii "expected ':' after case"
  | .catchEnd => ascii "expected ')' after catch parameter"
  | .handler => ascii "expected 'catch' or 'finally' after try block"

inductive SyntaxError
  /-- The text cannot be read as tokens. -/
  | lexical (error : LexicalError)
  | expected (what : Expectation) (found : TokenKind)
  | missingSemicolon (found : TokenKind)
  /-- A key that is no name stands alone. -/
  | keyWithoutValue
  | assignmentTarget
  | updateOperand
  | lineBreakAfterThrow (found : TokenKind)
  | staticBlock (found : TokenKind)
  deriving DecidableEq, Repr

namespace SyntaxError

def code : SyntaxError → Bytes
  | .lexical _ => ascii "L001"
  | .expected _ _ | .keyWithoutValue => ascii "P001"
  | .missingSemicolon _ => ascii "P002"
  | .assignmentTarget | .updateOperand => ascii "P003"
  | .lineBreakAfterThrow _ => ascii "P004"
  | .staticBlock _ => ascii "P005"

/-- A message with the kind of the token found. -/
def withFound (message : Bytes) (found : TokenKind) : Bytes :=
  message ++ ascii ", found '" ++ found.text ++ ascii "'"

def message : SyntaxError → Bytes
  | .lexical error => error.message
  | .expected what found => withFound what.message found
  | .missingSemicolon found => withFound (ascii "expected ';'") found
  | .keyWithoutValue => ascii "expected ':' after property key"
  | .assignmentTarget => ascii "invalid assignment target"
  | .updateOperand => ascii "invalid increment/decrement operand"
  | .lineBreakAfterThrow found => withFound (ascii "illegal line break after 'throw'") found
  | .staticBlock found => withFound (ascii "class static blocks are not supported") found

end SyntaxError

/-- An error at the part of a text that it was found in. -/
structure SyntaxFault where
  error : SyntaxError
  span : Span
  deriving DecidableEq, Repr

end ModuleLint
