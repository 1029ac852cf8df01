import ModuleLint.Grammar.Nonterminal

/-!
Binding patterns: what a declaration, a parameter or a `catch` clause binds.

Every name that a pattern binds is a `Name` node, also where `{a}` stands for `{a: a}`.
-/

namespace ModuleLint.Grammar

open Reader

variable (readers : Readers)

/-- The key of a property: a name, a string or a number. -/
def propertyKey : Reader Token := do
  let t ← current
  if t.kind.isName ∨ t.kind = .string ∨ t.kind = .number then advance
  else failHere (.expected .propertyName)

/-- A key in brackets, whose opening bracket is taken. -/
def computedKey : Reader Node := do
  let key ← readers .assignment
  let _ ← expect .rbracket .computedKeyEnd
  return key

/-- `...name` in an object pattern, whose dots are taken. -/
def objectRest (start : Span) : Reader Node := do
  let t ← expect .identifier .restName
  node .rest start [nameOf t]

/-- `[key]: element` in an object pattern, whose opening bracket is taken. -/
def computedEntry (start : Span) : Reader Node := do
  let key ← computedKey readers
  let _ ← expect .colon .computedKeyColon
  let element ← readers .bindingElement
  node .computedProp start [key, element]

/-- What a key binds: the element after a colon, or else the name that the key is. -/
def entryValue (start : Span) (key : Token) : Reader Node := do
  if ← accept .colon then readers .bindingElement
  else if key.kind ≠ .identifier then fail .keyWithoutValue key.span
  else if ← accept .assign then
    let fallback ← readers .assignment
    node .defaultValue start [nameOf key, fallback]
  else return nameOf key

/-- An entry of an object pattern. -/
def objectEntry : Reader Node := do
  let start ← here
  if ← accept .ellipsis then objectRest start
  else if ← accept .lbracket then computedEntry readers start
  else
    let key ← propertyKey
    let value ← entryValue readers start key
    extended ⟨.stringKey, key.value, start, {}, [value]⟩

/-- `{…}`, at whose brace the reader stands. -/
def objectPattern : Reader Node := do
  let brace ← advance
  let entries ← list .rbrace false (objectEntry readers)
  let _ ← expect .rbrace .objectPatternEnd
  node .objectPattern brace.span entries

/-- `...target`, at whose dots the reader stands. -/
def restElement : Reader Node := do
  let dots ← advance
  let target ← readers .bindingTarget
  node .rest dots.span [target]

/-- An element of an array pattern or a parameter. -/
def listElement : Reader Node := do
  if ← isAt .ellipsis then restElement readers
  else readers .bindingElement

/-- `[…]`, at whose bracket the reader stands. -/
def arrayPattern : Reader Node := do
  let bracket ← advance
  let elements ← list .rbracket true (listElement readers)
  let _ ← expect .rbracket .arrayPatternEnd
  node .arrayPattern bracket.span elements

/-- A pattern, at whose brace or bracket the reader stands. -/
def pattern : Reader Node := do
  if ← isAt .lbrace then objectPattern readers
  else arrayPattern readers

/-- A name or a pattern. -/
def bindingTarget : Reader Node := do
  if ← isAtAny [.lbrace, .lbracket] then pattern readers
  else return nameOf (← expect .identifier .bindingName)

/-- A target with a default value or without. -/
def bindingElement : Reader Node := do
  let start ← here
  let target ← bindingTarget readers
  if ← accept .assign then
    let fallback ← readers .assignment
    node .defaultValue start [target, fallback]
  else return target

end ModuleLint.Grammar
