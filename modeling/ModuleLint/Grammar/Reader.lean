import ModuleLint.Grammar.Error
import ModuleLint.Syntax.Node

/-!
Readers: computations that take tokens one after another.

A reader starts in a state, the tokens that are left and the errors recorded so far, and ends with a
value, with a fault, or stuck. Stuck means that a bound on recursion was too small; the bounds below
are functions of the number of tokens left. `repeatedly` and `growing` are the loops of the grammar:
one collects items and the other builds a tree to the left.
-/

namespace ModuleLint

/-- Where a reader stands. -/
structure ReaderState where
  /-- The token last taken; at the start, the first token. -/
  previous : Token
  /-- The token to be taken next. -/
  current : Token
  /-- The tokens after it. -/
  ahead : List Token
  /-- The errors recorded so far, in order. -/
  faults : List SyntaxFault
  /-- Whether `in` is an operator here. It is none in the first part of a `for` head. -/
  allowsIn : Bool
  /-- Where a semicolon was left out so far, in order: each time, how many tokens stand behind the
  one before which it is missing. -/
  omitted : List Nat
  deriving DecidableEq, Repr

inductive Reply (α : Type)
  | ok (value : α) (state : ReaderState)
  | fault (fault : SyntaxFault) (state : ReaderState)
  | stuck

/-- A computation on the tokens that are left. -/
def Reader (α : Type) := ReaderState → Reply α

namespace Reader

def result {α : Type} (value : α) : Reader α := fun s => .ok value s

/-- Goes on with `f` unless `p` ends with a fault. -/
def andThen {α β : Type} (p : Reader α) (f : α → Reader β) : Reader β := fun s =>
  match p s with
  | .ok value s => f value s
  | .fault fault s => .fault fault s
  | .stuck => .stuck

instance : Monad Reader where
  pure := result
  bind := andThen

/-- A value read off the state. -/
def look {α : Type} (f : ReaderState → α) : Reader α := fun s => .ok (f s) s

/-- Ends with an error at a span. -/
def fail {α : Type} (error : SyntaxError) (span : Span) : Reader α :=
  fun s => .fault ⟨error, span⟩ s

/-- Ends with an error at the current token that names its kind. -/
def failHere {α : Type} (error : TokenKind → SyntaxError) : Reader α := fun s =>
  .fault ⟨error s.current.kind, s.current.span⟩ s

/-! ### Looking at tokens -/

def current : Reader Token := look (·.current)

/-- The span of the current token. -/
def here : Reader Span := look (·.current.span)

/-- The token after the current one; at the end, the current one. -/
def nextToken (s : ReaderState) : Token := s.ahead.head?.getD s.current

def isAt (kind : TokenKind) : Reader Bool := look (·.current.kind == kind)

def isAtAny (kinds : List TokenKind) : Reader Bool := look (kinds.contains ·.current.kind)

/-- Whether the current token is the last one, the end of the text. -/
def isAtEnd : Reader Bool := isAt .eof

/-- Whether the token is the identifier `word`, which is a keyword in some places only. -/
def isWord (word : Bytes) (t : Token) : Bool := t.kind == .identifier && t.lexeme == word

/-! ### Taking tokens -/

/-- The state with the current token taken. The end of the text is never taken. -/
def step (s : ReaderState) : ReaderState :=
  if s.current.kind = .eof then s
  else
    match s.ahead with
    | [] => s
    | t :: rest => { s with previous := s.current, current := t, ahead := rest }

/-- Takes the current token. -/
def advance : Reader Token := fun s => .ok s.current (step s)

/-- Takes the current token if it is of a kind. -/
def accept (kind : TokenKind) : Reader Bool := do
  if ← isAt kind then
    let _ ← advance
    return true
  else return false

/-- Takes a token of a kind. -/
def expect (kind : TokenKind) (what : Expectation) : Reader Token := do
  if ← isAt kind then advance
  else failHere (.expected what)

/-- Notes that a semicolon was left out here. -/
def omitSemicolon : Reader Unit := fun s =>
  .ok () { s with omitted := s.omitted ++ [s.ahead.length] }

/-- Takes the semicolon that ends a statement. It may be missing before a closing brace, at the end
of the text and before a token on a new line. -/
def semicolon : Reader Unit := do
  if ← accept .semi then return
  let t ← current
  if t.kind = .rbrace ∨ t.kind = .eof ∨ t.newlineBefore then omitSemicolon
  else failHere .missingSemicolon

/-- Takes the current token if it is the word and the token after it lets the word be a modifier. -/
def acceptWord (word : Bytes) (applies : Token → Bool) : Reader Bool := do
  if ← look fun s => isWord word s.current && applies (nextToken s) then
    let _ ← advance
    return true
  else return false

/-! ### Nodes -/

/-- The node with its span ending at the token last taken. -/
def extended (n : Node) : Reader Node :=
  look fun s => { n with span := n.span.merge s.previous.span }

/-- A node from the start of `start` to the end of the token last taken. -/
def node (kind : NodeKind) (start : Span) (children : List Node) : Reader Node :=
  extended (Node.of kind start children)

/-- The name that a token spells. -/
def nameOf (t : Token) : Node := Node.leaf .name t.value t.span

/-! ### The operator `in` -/

def setAllowsIn (allows : Bool) : Reader Unit := fun s => .ok () { s with allowsIn := allows }

/-- Runs `p` with `in` allowed or not, and as before after it, even after a fault. -/
def withIn {α : Type} (allows : Bool) (p : Reader α) : Reader α := fun s =>
  match p { s with allowsIn := allows } with
  | .ok value t => .ok value { t with allowsIn := s.allowsIn }
  | .fault fault t => .fault fault { t with allowsIn := s.allowsIn }
  | .stuck => .stuck

/-- Runs `p` with `in` allowed, and as before after its success. A fault leaves it allowed. -/
def allowingIn {α : Type} (p : Reader α) : Reader α := do
  let before ← look (·.allowsIn)
  setAllowsIn true
  let value ← p
  setAllowsIn before
  return value

/-! ### Loops -/

/-- One turn of a loop: the items it read, and whether it was the last one. -/
inductive Turn
  | more (items : List Node)
  | last (items : List Node)

/-- The items of at most `bound` turns. -/
def repeatedAtMost (turn : Reader Turn) : Nat → Reader (List Node)
  | 0 => fun _ => .stuck
  | bound + 1 => do
    match ← turn with
    | .last items => return items
    | .more items => return items ++ (← repeatedAtMost turn bound)

/-- The items of turns that each take a token, up to the last one. -/
def repeatedly (turn : Reader Turn) : Reader (List Node) := fun s =>
  repeatedAtMost turn (s.ahead.length + 1) s

/-- The tree grown by at most `bound` turns. -/
def grownAtMost (turn : Node → Reader (Option Node)) : Nat → Node → Reader Node
  | 0, _ => fun _ => .stuck
  | bound + 1, n => do
    match ← turn n with
    | none => return n
    | some n => grownAtMost turn bound n

/-- The tree grown by turns that each take a token, until one has nothing to add. -/
def growing (turn : Node → Reader (Option Node)) (n : Node) : Reader Node := fun s =>
  grownAtMost turn (s.ahead.length + 1) n s

/-- One item of a list and the comma after it, unless the list ends. An item is missing where a
comma stands, if `holes` are allowed. -/
def listTurn (close : TokenKind) (holes : Bool) (item : Reader Node) : Reader Turn := do
  let t ← current
  if t.kind = close ∨ t.kind = .eof then return .last []
  if holes ∧ t.kind = .comma then
    let comma ← advance
    return .more [Node.of .empty comma.span []]
  let n ← item
  if ← accept .comma then return .more [n]
  else return .last [n]

/-- Items with commas between them, up to the token that closes the list. -/
def list (close : TokenKind) (holes : Bool) (item : Reader Node) : Reader (List Node) :=
  repeatedly (listTurn close holes item)

/-! ### Recovery -/

/-- Tokens that a statement can start with and that end a skipped part of the text. -/
def startsStatement : TokenKind → Bool
  | .kwVar | .kwLet | .kwConst | .kwFunction | .kwClass | .kwIf | .kwFor | .kwWhile | .kwDo
  | .kwReturn | .kwThrow | .kwTry | .kwSwitch => true
  | _ => false

/-- Skips tokens until a semicolon is taken or the current token starts a statement, closes a block
or starts a line. -/
def skipAhead : Nat → ReaderState → ReaderState
  | 0, s => s
  | bound + 1, s =>
    if s.current.kind = .eof ∨ s.previous.kind = .semi ∨ startsStatement s.current.kind ∨
        s.current.kind = .rbrace ∨ s.current.newlineBefore then s
    else skipAhead bound (step s)

/-- Skips to where the next statement may start; at least one token is taken. -/
def toNextStatement (s : ReaderState) : ReaderState := skipAhead s.ahead.length (step s)

/-- The statement that `p` reads; its fault is recorded and the text skipped to the next
statement. -/
def recovering (p : Reader Node) : Reader (List Node) := fun s =>
  match p s with
  | .ok n s => .ok [n] s
  | .fault fault s => .ok [] (toNextStatement { s with faults := s.faults ++ [fault] })
  | .stuck => .stuck

/-- One statement, or the text skipped for its fault, unless a token of one of the kinds or the end
of the text is there. -/
def statementTurn (statement : Reader Node) (ends : List TokenKind) : Reader Turn := do
  if ← isAtAny (.eof :: ends) then return .last []
  return .more (← recovering statement)

/-- Statements up to a token of one of the kinds, or the end of the text. -/
def statements (statement : Reader Node) (ends : List TokenKind) : Reader (List Node) :=
  repeatedly (statementTurn statement ends)

end Reader

end ModuleLint
