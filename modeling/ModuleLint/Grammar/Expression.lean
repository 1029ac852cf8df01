import ModuleLint.Grammar.Class

/-!
Expressions.

Binary operators are read by level: a loop joins operands while operators bind tighter than the
level it was asked for. All of them group to the left, only `**` groups to the right. Assignments
and arrow functions stand below the conditional, and commas below them.
-/

namespace ModuleLint.Grammar

open Reader

variable (readers : Readers)

/-! ### Operands -/

/-- `( … )`, at whose parenthesis the reader stands. It leaves no node. -/
def parenthesized : Reader Node := do
  let _ ← advance
  let inner ← withIn true (readers .expression)
  let _ ← expect .rparen .closingParen
  return inner

/-- The kinds of the nodes that single tokens stand for, and whether the token's value is kept. -/
def literalKind? : TokenKind → Option (NodeKind × Bool)
  | .identifier => some (.name, true)
  | .number => some (.numberLit, true)
  | .string => some (.stringLit, true)
  | .template => some (.templateLit, true)
  | .regex => some (.regexLit, true)
  | .kwThis => some (.thisExpr, false)
  | .kwSuper => some (.superExpr, false)
  | .kwNull => some (.nullLit, false)
  | .kwTrue => some (.trueLit, false)
  | .kwFalse => some (.falseLit, false)
  | _ => none

/-- A name or literal of one token. -/
def literal (kind : NodeKind) (keepsValue : Bool) : Reader Node := do
  let t ← advance
  return Node.leaf kind (if keepsValue then t.value else []) t.span

/-- `async` and the function after it. -/
def asyncFunction (isExpression : Bool) : Reader Node := do
  let _ ← advance
  function readers isExpression { isAsync := true }

def primary : Reader Node := do
  if ← look isAsyncFunction then asyncFunction readers true
  else
    let t ← current
    match literalKind? t.kind with
    | some (kind, keepsValue) => literal kind keepsValue
    | none =>
      match t.kind with
      | .lparen => parenthesized readers
      | .lbracket => arrayLiteral readers
      | .lbrace => objectLiteral readers
      | .kwFunction => function readers true {}
      | .kwClass => classDefinition readers true
      | _ => failHere (.expected .expression)

/-- What stands after `new`, which may be another `new`. -/
def created : Reader Node := do
  if ← isAt .kwNew then readers .newExpression
  else primary readers

/-- The arguments of a `new`, if it has any. -/
def createdArguments : Reader (List Node) := do
  if ← isAt .lparen then arguments readers
  else return []

/-- `new`, at whose keyword the reader stands: accesses bind to what is created, and the first list
of arguments belongs to the `new`. -/
def newExpression : Reader Node := do
  let keyword ← advance
  let callee ← created readers
  let callee ← accesses readers false callee
  let args ← createdArguments readers
  node .new keyword.span (callee :: args)

/-- Whether `++` and `--` and compound assignments can change what a node names. -/
def isReference (n : Node) : Bool := n.kind == .name || n.kind == .getProp || n.kind == .getElem

/-- Whether a node can stand before `=`. -/
def isAssignable (n : Node) : Bool := isReference n || n.kind == .objectLit || n.kind == .arrayLit

/-- An operand with `++` or `--` after it, if it stands on the same line. -/
def afterOperand (start : Span) (operand : Node) : Reader Node := do
  let t ← current
  if (t.kind = .plusPlus ∨ t.kind = .minusMinus) ∧ ¬ t.newlineBefore then
    if isReference operand then
      let operator ← advance
      extended ⟨.update, operator.lexeme, start, { isAfterOperand := true }, [operand]⟩
    else fail .updateOperand operand.span
  else return operand

/-- An operand before its accesses. -/
def operandBase : Reader Node := do
  if ← isAt .kwNew then newExpression readers
  else primary readers

def operand : Reader Node := do
  let start ← here
  let base ← operandBase readers
  afterOperand start (← accesses readers true base)

/-! ### Operators -/

def isUnaryOperator : TokenKind → Bool
  | .bang | .tilde | .plus | .minus | .kwTypeof | .kwVoid | .kwDelete => true
  | _ => false

def unary : Reader Node := do
  let t ← current
  if isUnaryOperator t.kind then
    let operator ← advance
    let argument ← readers .unary
    extended ⟨.unary, operator.lexeme, operator.span, {}, [argument]⟩
  else if t.kind = .plusPlus ∨ t.kind = .minusMinus then
    let operator ← advance
    let argument ← readers .unary
    if isReference argument then
      extended ⟨.update, operator.lexeme, operator.span, {}, [argument]⟩
    else fail .updateOperand argument.span
  else operand readers

/-- How tightly a binary operator binds, from 1 to 12; zero for every other token. -/
def level (allowsIn : Bool) : TokenKind → Nat
  | .questionQuestion => 1
  | .orOr => 2
  | .andAnd => 3
  | .bitOr => 4
  | .bitXor => 5
  | .bitAnd => 6
  | .eq | .ne | .strictEq | .strictNe => 7
  | .lt | .gt | .le | .ge | .kwInstanceof => 8
  | .kwIn => if allowsIn then 8 else 0
  | .shl | .shr | .ushr => 9
  | .plus | .minus => 10
  | .star | .slash | .percent => 11
  | .starStar => 12
  | _ => 0

/-- One more operator tighter than `floor` and its right operand, if they follow. -/
def binaryTurn (start : Span) (floor : Nat) (left : Node) : Reader (Option Node) := do
  let tightness ← look fun s => level s.allowsIn s.current.kind
  if tightness ≤ floor then return none
  else
    let operator ← advance
    let right ← readers
      (.binary (if operator.kind = .starStar then tightness - 1 else tightness))
    return some (← extended ⟨.binary, operator.lexeme, start, {}, [left, right]⟩)

/-- Operands joined by operators that bind tighter than `floor`. -/
def binary (floor : Nat) : Reader Node := do
  let start ← here
  let left ← unary readers
  growing (binaryTurn readers start floor) left

def conditional : Reader Node := do
  let start ← here
  let condition ← binary readers 0
  if ← accept .question then
    let whenTrue ← withIn true (readers .assignment)
    let _ ← expect .colon .conditionalColon
    let whenFalse ← readers .assignment
    node .conditional start [condition, whenTrue, whenFalse]
  else return condition

/-- The operator and value of an assignment to `target`, at whose operator the reader stands. -/
def assignmentRest (start : Span) (target : Node) : Reader Node := do
  let operator ← advance
  let isSimple := operator.kind == .assign
  if if isSimple then isAssignable target else isReference target then
    let value ← readers .assignment
    if isSimple then node .assign start [target, value]
    else extended ⟨.assignOp, operator.lexeme, start, {}, [target, value]⟩
  else fail .assignmentTarget target.span

def assignment : Reader Node := do
  if ← look isArrow then arrowFunction readers false
  else if ← look isAsyncArrow then
    let _ ← advance
    arrowFunction readers true
  else
    let start ← here
    let target ← conditional readers
    if ← look (·.current.kind.isAssignmentOperator) then assignmentRest readers start target
    else return target

/-- One more expression after a comma, if there is one. -/
def commaTurn (start : Span) (left : Node) : Reader (Option Node) := do
  if ← accept .comma then
    let right ← assignment readers
    return some (← node .comma start [left, right])
  else return none

def expression : Reader Node := do
  let start ← here
  let first ← assignment readers
  growing (commaTurn readers start) first

end ModuleLint.Grammar
