import ModuleLint.Grammar.Pattern

/-!
Blocks and functions.

A function is a node with a name, its parameters and its body. The name is empty where the source
gives none. The body of an arrow function may be an expression.
-/

namespace ModuleLint.Grammar

open Reader

variable (readers : Readers)

/-- `{ … }`. -/
def block : Reader Node := do
  let start ← here
  let _ ← expect .lbrace .block
  let body ← statements (readers .statement) [.rbrace]
  let _ ← expect .rbrace .blockEnd
  node .block start body

/-- `( … )` with the parameters of a function. -/
def parameters : Reader Node := do
  let start ← here
  let _ ← expect .lparen .parameters
  let items ← list .rparen false (listElement readers)
  let _ ← expect .rparen .parametersEnd
  node .paramList start items

/-- A function of which the name is read. -/
def functionRest (start : Span) (flags : NodeFlags) (name : Node) : Reader Node := do
  let params ← parameters readers
  let body ← withIn true (block readers)
  extended ⟨.function, [], start, flags, [name, params, body]⟩

/-- Parameters and body of a method. -/
def method (start : Span) (flags : NodeFlags) : Reader Node :=
  functionRest readers start flags (Node.leaf .name [] start)

/-- The name of a function, which a statement must give and an expression may give. -/
def functionName (isExpression : Bool) : Reader Node := do
  if ← isAt .identifier then return nameOf (← advance)
  else if isExpression then return Node.leaf .name [] (← here)
  else failHere (.expected .functionName)

/-- A function, at whose keyword the reader stands. -/
def function (isExpression : Bool) (flags : NodeFlags) : Reader Node := do
  let keyword ← advance
  let _ ← accept .star
  let name ← functionName isExpression
  functionRest readers keyword.span flags name

/-- Whether `async` stands before a function on the same line. -/
def isAsyncFunction (s : ReaderState) : Bool :=
  isWord (ascii "async") s.current && (nextToken s).kind == .kwFunction &&
    !(nextToken s).newlineBefore

/-! ### Arrow functions -/

/-- Whether the bracket that closes `depth` open ones is a parenthesis with an arrow after it.
Brackets are counted without regard to their kind. -/
def closesBeforeArrow : Nat → List Token → Bool
  | _, [] => false
  | depth, t :: rest =>
    match t.kind with
    | .lparen | .lbracket | .lbrace => closesBeforeArrow (depth + 1) rest
    | .rparen | .rbracket | .rbrace =>
      if depth = 1 then t.kind == .rparen && rest.head?.any (·.kind == .arrow)
      else closesBeforeArrow (depth - 1) rest
    | .eof => false
    | _ => closesBeforeArrow depth rest

/-- Whether tokens start with the parameters of an arrow function and its arrow. -/
def startsArrow : List Token → Bool
  | [] => false
  | t :: rest =>
    if t.kind = .identifier then rest.head?.any (·.kind == .arrow)
    else t.kind == .lparen && closesBeforeArrow 0 (t :: rest)

/-- Whether an arrow function starts here. -/
def isArrow (s : ReaderState) : Bool := startsArrow (s.current :: s.ahead)

/-- Whether `async` stands before an arrow function on the same line. -/
def isAsyncArrow (s : ReaderState) : Bool :=
  isWord (ascii "async") s.current && !(nextToken s).newlineBefore && startsArrow s.ahead

/-- The parameters of an arrow function: a name or a list in parentheses. -/
def arrowParameters : Reader Node := do
  if ← isAt .identifier then
    let t ← advance
    return Node.of .paramList t.span [nameOf t]
  else parameters readers

def arrowBody : Reader Node := do
  if ← isAt .lbrace then withIn true (block readers)
  else readers .assignment

def arrowFunction (isAsync : Bool) : Reader Node := do
  let start ← here
  let params ← arrowParameters readers
  let _ ← expect .arrow .arrow
  let body ← arrowBody readers
  extended ⟨.function, [], start, { isArrow := true, isAsync },
    [Node.leaf .name [] start, params, body]⟩

end ModuleLint.Grammar
