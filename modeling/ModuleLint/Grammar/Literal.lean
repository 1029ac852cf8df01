import ModuleLint.Grammar.Access
import ModuleLint.Grammar.Function

/-!
Array and object literals.

A shorthand `{a}` is a key without a value, which tells it from `{a: a}`; `{a = 1}` keeps its
default value, as it may turn out to be the target of an assignment.
-/

namespace ModuleLint.Grammar

open Reader

variable (readers : Readers)

/-- `[…]`, at whose bracket the reader stands. -/
def arrayLiteral : Reader Node := do
  let bracket ← advance
  let elements ← allowingIn (list .rbracket true (spreadable readers))
  let _ ← expect .rbracket .arrayEnd
  node .arrayLit bracket.span elements

/-- The modifiers `async` and `get` or `set`, where the token after them lets them be modifiers.
`async` also stands on the line of what follows. -/
def modifiers (flags : NodeFlags) (applies : Token → Bool) : Reader NodeFlags := do
  let isAsync ← acceptWord (ascii "async") fun t => applies t && !t.newlineBefore
  let isGetter ← acceptWord (ascii "get") applies
  let isSetter ← acceptWord (ascii "set") fun t => !isGetter && applies t
  return { flags with isAsync, isGetter, isSetter }

/-- Whether a word before the token may modify a property: the token does not make the word its
key. -/
def modifiesProperty (t : Token) : Bool :=
  !([TokenKind.colon, .lparen, .comma, .rbrace, .assign].contains t.kind)

/-- `[key]: value` or `[key]() { … }`, whose opening bracket is taken. -/
def computedProperty (start : Span) (flags : NodeFlags) : Reader Node := do
  let key ← computedKey readers
  if ← isAt .lparen then
    let value ← method readers start flags
    extended ⟨.computedProp, [], start, flags, [key, value]⟩
  else
    let _ ← expect .colon .computedKeyColon
    let value ← readers .assignment
    extended ⟨.computedProp, [], start, flags, [key, value]⟩

/-- `key() { … }`, whose key is read. -/
def memberFunction (start : Span) (flags : NodeFlags) (key : Token) : Reader Node := do
  let value ← method readers start flags
  extended ⟨.memberFunction, key.value, start, flags, [value]⟩

/-- What stands after the key of a property: a value, a default value or nothing. -/
def keyedValue (start : Span) (key : Token) : Reader (List Node) := do
  if ← accept .colon then return [← readers .assignment]
  else if key.kind ≠ .identifier then fail .keyWithoutValue key.span
  else if ← accept .assign then
    let fallback ← readers .assignment
    return [← node .defaultValue start [nameOf key, fallback]]
  else return []

/-- A property of an object literal that is no spread. -/
def keyedProperty : Reader Node := do
  let start ← here
  let flags ← modifiers {} modifiesProperty
  let isGenerator ← accept .star
  if ← accept .lbracket then computedProperty readers start flags
  else
    let key ← propertyKey
    if flags ≠ {} ∨ isGenerator ∨ (← isAt .lparen) then memberFunction readers start flags key
    else
      let value ← keyedValue readers start key
      extended ⟨.stringKey, key.value, start, {}, value⟩

def objectProperty : Reader Node := do
  if ← isAt .ellipsis then spread readers
  else keyedProperty readers

/-- `{…}`, at whose brace the reader stands. -/
def objectLiteral : Reader Node := do
  let brace ← advance
  let properties ← allowingIn (list .rbrace false (objectProperty readers))
  let _ ← expect .rbrace .objectEnd
  node .objectLit brace.span properties

end ModuleLint.Grammar
