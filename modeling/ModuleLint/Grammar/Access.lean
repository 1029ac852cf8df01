import ModuleLint.Grammar.Nonterminal

/-!
What follows an operand: properties, indices and argument lists.
-/

namespace ModuleLint.Grammar

open Reader

variable (readers : Readers)

/-- `...value`, at whose dots the reader stands. -/
def spread : Reader Node := do
  let dots ← advance
  let value ← readers .assignment
  node .spread dots.span [value]

/-- An argument or an element of an array. -/
def spreadable : Reader Node := do
  if ← isAt .ellipsis then spread readers
  else readers .assignment

/-- `( … )` with arguments, at whose parenthesis the reader stands. -/
def arguments : Reader (List Node) := do
  let _ ← advance
  let items ← withIn true (list .rparen false (spreadable readers))
  let _ ← expect .rparen .argumentsEnd
  return items

/-- `.property`, whose dot is taken. -/
def property (object : Node) : Reader Node := do
  let t ← current
  if t.kind.isName then
    let t ← advance
    extended ⟨.getProp, t.value, object.span, {}, [object]⟩
  else failHere (.expected .propertyAfterDot)

/-- `[index]`, whose opening bracket is taken. -/
def index (object : Node) : Reader Node := do
  let i ← withIn true (readers .expression)
  let _ ← expect .rbracket .indexEnd
  node .getElem object.span [object, i]

/-- One access to an operand, if one follows. -/
def access (allowCall : Bool) (operand : Node) : Reader (Option Node) := do
  if ← accept .dot then return some (← property operand)
  else if ← accept .lbracket then return some (← index readers operand)
  else if allowCall ∧ (← isAt .lparen) then
    let args ← arguments readers
    return some (← node .call operand.span (operand :: args))
  else return none

/-- The operand with every access that follows it. -/
def accesses (allowCall : Bool) (operand : Node) : Reader Node :=
  growing (access readers allowCall) operand

end ModuleLint.Grammar
