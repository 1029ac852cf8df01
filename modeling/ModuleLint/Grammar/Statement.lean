import ModuleLint.Grammar.Expression

/-!
Statements.

Where the source leaves out a part of a statement that its node has a place for, an empty node
stands there.
-/

namespace ModuleLint.Grammar

open Reader

variable (readers : Readers)

/-! ### Declarations -/

/-- The value after `=`, if there is one. -/
def initializer : Reader (List Node) := do
  if ← accept .assign then return [← assignment readers]
  else return []

/-- A name or a pattern with its value. -/
def declarator : Reader Node := do
  let start ← here
  if ← isAtAny [.lbrace, .lbracket] then
    let p ← pattern readers
    let value ← initializer readers
    node .destructuring start (p :: value)
  else
    let name ← expect .identifier .variableName
    let value ← initializer readers
    extended ⟨.name, name.value, start, {}, value⟩

/-- A declarator and the comma after it, unless it is the last. -/
def declaratorTurn : Reader Turn := do
  let d ← declarator readers
  if ← accept .comma then return .more [d]
  else return .last [d]

/-- A declaration without its semicolon, at whose keyword the reader stands. -/
def declaration (kind : NodeKind) : Reader Node := do
  let keyword ← advance
  let declarators ← repeatedly (declaratorTurn readers)
  node kind keyword.span declarators

/-- The kind of the declarations that a keyword starts. -/
def declarationKind? : TokenKind → Option NodeKind
  | .kwVar => some .varDecl
  | .kwLet => some .letDecl
  | .kwConst => some .constDecl
  | _ => none

def declarationStatement (kind : NodeKind) : Reader Node := do
  let d ← declaration readers kind
  semicolon
  extended d

/-! ### Branches and loops -/

/-- `( condition )`. -/
def condition (opening : Expectation) : Reader Node := do
  let _ ← expect .lparen opening
  let c ← expression readers
  let _ ← expect .rparen .conditionEnd
  return c

/-- The statement after `else`, if there is one. -/
def elseBranch : Reader (List Node) := do
  if ← accept .kwElse then return [← readers .statement]
  else return []

def ifStatement : Reader Node := do
  let keyword ← advance
  let c ← condition readers .ifCondition
  let whenTrue ← readers .statement
  let whenFalse ← elseBranch readers
  node .ifStmt keyword.span (c :: whenTrue :: whenFalse)

def whileStatement : Reader Node := do
  let keyword ← advance
  let c ← condition readers .whileCondition
  let body ← readers .statement
  node .whileStmt keyword.span [c, body]

/-- A `do` loop, after which a semicolon may always be missing. -/
def doWhileStatement : Reader Node := do
  let keyword ← advance
  let body ← readers .statement
  let _ ← expect .kwWhile .doWhile
  let c ← condition readers .whileCondition
  let _ ← accept .semi
  node .doWhileStmt keyword.span [body, c]

/-- An empty node at the current token. -/
def absent : Reader Node := do return Node.of .empty (← here) []

/-- The first part of a `for` head, where `in` is no operator. -/
def forStart : Reader Node := withIn false do
  let t ← current
  match declarationKind? t.kind with
  | some kind => declaration readers kind
  | none => if t.kind = .semi then absent else expression readers

/-- The end of a `for` head and the body. -/
def forBody : Reader Node := do
  let _ ← expect .rparen .forHeadEnd
  readers .statement

/-- An expression of a `for` head, absent before the token that ends it. -/
def forPart (close : TokenKind) : Reader Node := do
  if ← isAt close then absent
  else expression readers

/-- What a loop runs over: the properties of any expression, or the elements of one without
commas. -/
def forSubject (isIn : Bool) : Reader Node :=
  if isIn then expression readers else assignment readers

/-- A loop over the properties of an object or the elements of a list, at its keyword. -/
def forEach (start : Span) (target : Node) : Reader Node := do
  let keyword ← advance
  let isIn := keyword.kind == .kwIn
  let subject ← forSubject readers isIn
  let body ← forBody readers
  node (if isIn then .forInStmt else .forOfStmt) start [target, subject, body]

/-- A loop with three parts in its head, of which the first is read. -/
def forClassic (start : Span) (init : Node) : Reader Node := do
  let _ ← expect .semi .forSemicolon
  let c ← forPart readers .semi
  let _ ← expect .semi .forSemicolon
  let update ← forPart readers .rparen
  let body ← forBody readers
  node .forStmt start [init, c, update, body]

def forStatement : Reader Node := do
  let keyword ← advance
  let _ ← expect .lparen .forHead
  let init ← forStart readers
  if ← look fun s => s.current.kind == .kwIn || isWord (ascii "of") s.current then
    forEach readers keyword.span init
  else forClassic readers keyword.span init

/-! ### Switch and try -/

/-- The label of a clause without its colon: its kind and the value it tests for. -/
def clauseLabel : Reader (NodeKind × List Node) := do
  if ← accept .kwCase then return (.caseClause, [← expression readers])
  else if ← accept .kwDefault then return (.defaultClause, [])
  else failHere (.expected .caseOrDefault)

/-- A clause of a `switch`; its statements form a block. -/
def clause : Reader Node := do
  let start ← here
  let (kind, test) ← clauseLabel readers
  let _ ← expect .colon .caseColon
  let bodyStart ← here
  let body ← statements (readers .statement) [.kwCase, .kwDefault, .rbrace]
  let block ← node .block bodyStart body
  node kind start (test ++ [block])

def clauseTurn : Reader Turn := do
  if ← isAtAny [.rbrace, .eof] then return .last []
  else return .more [← clause readers]

def switchStatement : Reader Node := do
  let keyword ← advance
  let _ ← expect .lparen .switchValue
  let value ← expression readers
  let _ ← expect .rparen .switchValueEnd
  let _ ← expect .lbrace .switchBody
  let clauses ← repeatedly (clauseTurn readers)
  let _ ← expect .rbrace .switchEnd
  node .switchStmt keyword.span (value :: clauses)

/-- What a `catch` clause binds, if anything. -/
def catchParameter : Reader Node := do
  if ← accept .lparen then
    let target ← bindingTarget readers
    let _ ← expect .rparen .catchEnd
    return target
  else absent

/-- A `catch` clause, at whose keyword the reader stands. -/
def catchClause : Reader Node := do
  let keyword ← advance
  let parameter ← catchParameter readers
  let body ← block readers
  node .catchClause keyword.span [parameter, body]

/-- The `catch` clause, at whose keyword the reader stands, or an empty node in its place. -/
def handler (isThere : Bool) : Reader Node := if isThere then catchClause readers else absent

/-- The block after `finally`, if there is one. -/
def finalizer : Reader (List Node) := do
  if ← accept .kwFinally then return [← block readers]
  else return []

def tryStatement : Reader Node := do
  let keyword ← advance
  let body ← block readers
  let hasHandler ← isAt .kwCatch
  let handler ← handler readers hasHandler
  let final ← finalizer readers
  if hasHandler || !final.isEmpty then node .tryStmt keyword.span (body :: handler :: final)
  else failHere (.expected .handler)

/-! ### Jumps -/

/-- Whether a statement that may end here does. -/
def endsStatement (t : Token) : Bool :=
  t.kind == .semi || t.kind == .rbrace || t.kind == .eof || t.newlineBefore

/-- The value of a `return`, if it has one. -/
def returnValue : Reader (List Node) := do
  if ← look (endsStatement ·.current) then return []
  else return [← expression readers]

def returnStatement : Reader Node := do
  let keyword ← advance
  let value ← returnValue readers
  semicolon
  node .returnStmt keyword.span value

def throwStatement : Reader Node := do
  let keyword ← advance
  if ← look fun s => s.current.newlineBefore || s.current.kind == .eof then
    failHere .lineBreakAfterThrow
  else
    let value ← expression readers
    semicolon
    node .throwStmt keyword.span [value]

/-- The label of a jump, if one stands on the same line. -/
def jumpLabel : Reader Bytes := do
  let t ← current
  if t.kind = .identifier ∧ ¬ t.newlineBefore then return (← advance).value
  else return []

/-- `break` or `continue`. -/
def jump (kind : NodeKind) : Reader Node := do
  let keyword ← advance
  let label ← jumpLabel
  semicolon
  extended ⟨kind, label, keyword.span, {}, []⟩

/-! ### All statements -/

def labeled : Reader Node := do
  let label ← advance
  let _ ← advance
  let body ← readers .statement
  extended ⟨.label, label.value, label.span, {}, [body]⟩

def expressionStatement : Reader Node := do
  let start ← here
  let e ← expression readers
  semicolon
  node .exprStmt start [e]

def emptyStatement : Reader Node := do return Node.of .empty (← advance).span []

/-- A statement that starts with an identifier. -/
def wordStatement : Reader Node := do
  if ← look fun s => (nextToken s).kind == .colon then labeled readers
  else if ← look isAsyncFunction then asyncFunction readers false
  else expressionStatement readers

def statement : Reader Node := do
  match (← current).kind with
  | .lbrace => block readers
  | .kwVar => declarationStatement readers .varDecl
  | .kwLet => declarationStatement readers .letDecl
  | .kwConst => declarationStatement readers .constDecl
  | .kwFunction => function readers false {}
  | .kwClass => classDefinition readers false
  | .kwIf => ifStatement readers
  | .kwWhile => whileStatement readers
  | .kwDo => doWhileStatement readers
  | .kwFor => forStatement readers
  | .kwSwitch => switchStatement readers
  | .kwTry => tryStatement readers
  | .kwReturn => returnStatement readers
  | .kwThrow => throwStatement readers
  | .kwBreak => jump .breakStmt
  | .kwContinue => jump .continueStmt
  | .semi => emptyStatement
  | .identifier => wordStatement readers
  | _ => expressionStatement readers

end ModuleLint.Grammar
