import ModuleLint.Grammar.Literal

/-!
Classes.

A class is a node with its name, what it extends and its members; the first two are empty nodes
where the source gives none. A member is a method or a field, under its name or a computed key.
-/

namespace ModuleLint.Grammar

open Reader

variable (readers : Readers)

/-- Whether a word before the token may modify a member: the token does not make the word its
name. -/
def modifiesMember (t : Token) : Bool :=
  !([TokenKind.lparen, .assign, .semi, .rbrace].contains t.kind)

/-- The value of a field, if it has one. -/
def fieldValue : Reader (List Node) := do
  if ← accept .assign then return [← readers .assignment]
  else return []

/-- The value of a field and the end of the field. -/
def field (start : Span) (flags : NodeFlags) (name : Bytes) : Reader Node := do
  let value ← fieldValue readers
  semicolon
  extended ⟨.memberField, name, start, flags, value⟩

/-- What a computed key of a class names: a method or a field. -/
def unnamedMember (start : Span) (flags : NodeFlags) : Reader Node := do
  if ← isAt .lparen then method readers start flags
  else field readers start flags []

/-- A method or field after its computed key, whose opening bracket is taken. -/
def computedMember (start : Span) (flags : NodeFlags) : Reader Node := do
  let key ← computedKey readers
  let value ← unnamedMember readers start flags
  extended ⟨.computedProp, [], start, flags, [key, value]⟩

/-- A method or field with its name. -/
def namedMember (start : Span) (flags : NodeFlags) : Reader Node := do
  let key ← propertyKey
  if ← isAt .lparen then memberFunction readers start flags key
  else field readers start flags key.value

def classMember : Reader Node := do
  if ← look fun s => isWord (ascii "static") s.current && (nextToken s).kind == .lbrace then
    failHere .staticBlock
  else
    let start ← here
    let isStatic ← acceptWord (ascii "static") modifiesMember
    let flags ← modifiers { isStatic } modifiesMember
    let _ ← accept .star
    if ← accept .lbracket then computedMember readers start flags
    else namedMember readers start flags

/-- A member, or a semicolon that stands for none, unless the class ends. -/
def memberTurn : Reader Turn := do
  if ← isAtAny [.rbrace, .eof] then return .last []
  else if ← accept .semi then return .more []
  else return .more [← classMember readers]

/-- The name of a class, which a statement must give and an expression may give. -/
def className (isExpression : Bool) : Reader Node := do
  if ← isAt .identifier then return nameOf (← advance)
  else if isExpression then return Node.of .empty (← here) []
  else failHere (.expected .className)

/-- What a class extends. -/
def heritage : Reader Node := do
  if ← accept .kwExtends then
    let base ← readers .primary
    accesses readers true base
  else return Node.of .empty (← here) []

/-- `{ … }` with the members of a class. -/
def classBody : Reader Node := do
  let start ← here
  let _ ← expect .lbrace .classBody
  let members ← repeatedly (memberTurn readers)
  let _ ← expect .rbrace .classEnd
  node .classMembers start members

/-- A class, at whose keyword the reader stands. -/
def classDefinition (isExpression : Bool) : Reader Node := do
  let keyword ← advance
  let name ← className isExpression
  let base ← heritage readers
  let members ← classBody readers
  node .classDef keyword.span [name, base, members]

end ModuleLint.Grammar
