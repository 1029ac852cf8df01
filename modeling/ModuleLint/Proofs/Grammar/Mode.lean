import ModuleLint.Proofs.Grammar.Regular

/-!
Readers that keep whether `in` is an operator.

`KeepsIn` compares two readers, of which the second may read statements in another way where `in` is
no operator. A part that leads to statements only through the body of a function reads them where it
is one, so both do the same anywhere; a statement itself does the same where it is one. Either way
`in` is afterwards what it was before, or an operator behind a fault. Like `Regular` this is seen
from how a reader is put together, so it is found by instance search.
-/

namespace ModuleLint

/-- `in` is what it was before, or an operator if there is a fault. -/
def Reply.KeepsIn {α : Type} (before : Bool) : Reply α → Prop
  | .ok _ t => t.allowsIn = before
  | .fault _ t => t.allowsIn = before ∨ t.allowsIn = true
  | .stuck => True

namespace Reader

/-- In every state, or only in those where `in` is an operator, both readers do the same and keep
what `in` is. -/
class KeepsIn {α : Type} (anywhere : Bool) (p p' : Reader α) : Prop where
  keeps : ∀ s, anywhere = true ∨ s.allowsIn = true → (p s).KeepsIn s.allowsIn
  same : ∀ s, anywhere = true ∨ s.allowsIn = true → p' s = p s

variable {α β : Type} {anywhere : Bool}

/-! ### Parts -/

section Parts

lemma keepsIn_self {p : Reader α} (h : ∀ s, (p s).KeepsIn s.allowsIn) : KeepsIn anywhere p p :=
  ⟨fun s _ => h s, fun _ _ => rfl⟩

lemma KeepsIn.mono {p p' : Reader α} (h : KeepsIn true p p') : KeepsIn anywhere p p' :=
  ⟨fun s _ => h.keeps s (.inl rfl), fun s _ => h.same s (.inl rfl)⟩

instance (g : ReaderState → α) : KeepsIn anywhere (look g) (look g) := keepsIn_self fun _ => rfl

instance (a : α) : KeepsIn anywhere (pure a : Reader α) (pure a) := keepsIn_self fun _ => rfl

instance : KeepsIn anywhere (fun _ => .stuck : Reader α) (fun _ => .stuck) :=
  keepsIn_self fun _ => trivial

instance (error : SyntaxError) (span : Span) :
    KeepsIn anywhere (fail error span : Reader α) (fail error span) :=
  keepsIn_self fun _ => .inl rfl

instance (error : TokenKind → SyntaxError) :
    KeepsIn anywhere (failHere error : Reader α) (failHere error) :=
  keepsIn_self fun _ => .inl rfl

instance : KeepsIn anywhere current current := keepsIn_self fun _ => rfl

instance : KeepsIn anywhere here here := keepsIn_self fun _ => rfl

instance (kind : TokenKind) : KeepsIn anywhere (isAt kind) (isAt kind) :=
  keepsIn_self fun _ => rfl

instance (kinds : List TokenKind) : KeepsIn anywhere (isAtAny kinds) (isAtAny kinds) :=
  keepsIn_self fun _ => rfl

instance (n : Node) : KeepsIn anywhere (extended n) (extended n) := keepsIn_self fun _ => rfl

instance (kind : NodeKind) (start : Span) (l : List Node) :
    KeepsIn anywhere (node kind start l) (node kind start l) :=
  keepsIn_self fun _ => rfl

instance : KeepsIn anywhere advance advance := keepsIn_self allowsIn_step

instance : KeepsIn anywhere omitSemicolon omitSemicolon := keepsIn_self fun _ => rfl

end Parts

/-! ### Rules -/

section Rules

variable {p p' q q' : Reader α} {f f' : α → Reader β}

lemma bind_same {s : ReaderState} (h : p' s = p s) : (p' >>= f) s = (p >>= f) s := by
  change andThen p' f s = andThen p f s
  rw [andThen, andThen, h]

lemma KeepsIn.bind (hp : KeepsIn anywhere p p') (hf : ∀ a, KeepsIn anywhere (f a) (f' a)) :
    KeepsIn anywhere (p >>= f) (p' >>= f') where
  keeps s h := by
    have first := hp.keeps s h
    cases hr : p s with
    | ok a t =>
      rw [hr] at first
      rw [bind_of_ok hr, ← first]
      exact (hf a).keeps t (first ▸ h)
    | fault fault t =>
      rw [hr] at first
      rw [bind_of_fault hr]
      exact first
    | stuck =>
      rw [bind_of_stuck hr]
      trivial
  same s h := by
    have first := hp.keeps s h
    have same := hp.same s h
    cases hr : p s with
    | ok a t =>
      rw [hr] at first same
      rw [bind_of_ok hr, bind_of_ok same]
      exact (hf a).same t (first ▸ h)
    | fault fault t => rw [bind_of_fault hr, bind_of_fault (same.trans hr)]
    | stuck => rw [bind_of_stuck hr, bind_of_stuck (same.trans hr)]

instance [KeepsIn anywhere p p'] [∀ a, KeepsIn anywhere (f a) (f' a)] :
    KeepsIn anywhere (p >>= f) (p' >>= f') :=
  .bind inferInstance inferInstance

instance {c : Prop} [Decidable c] [hp : KeepsIn anywhere p p'] [hq : KeepsIn anywhere q q'] :
    KeepsIn anywhere (if c then p else q) (if c then p' else q') := by
  split
  · exact hp
  · exact hq

/-- What a reader does inside depends on what `in` is there alone. -/
lemma KeepsIn.withIn {allows inside : Bool} (hp : KeepsIn inside p p')
    (fits : inside = true ∨ allows = true) :
    KeepsIn anywhere (withIn allows p) (withIn allows p') where
  keeps s _ := by
    unfold Reader.withIn
    cases p { s with allowsIn := allows } with
    | ok a t => rfl
    | fault fault t => exact .inl rfl
    | stuck => trivial
  same s _ := by
    unfold Reader.withIn
    rw [hp.same { s with allowsIn := allows } fits]

instance [hp : KeepsIn false p p'] : KeepsIn anywhere (withIn true p) (withIn true p') :=
  hp.withIn (.inr rfl)

lemma KeepsIn.withoutIn (hp : KeepsIn true p p') :
    KeepsIn anywhere (Reader.withIn false p) (Reader.withIn false p') :=
  hp.withIn (.inl rfl)

/-- A fault inside leaves `in` an operator. -/
instance [hp : KeepsIn false p p'] : KeepsIn anywhere (allowingIn p) (allowingIn p') where
  keeps s _ := by
    have inner := hp.keeps { s with allowsIn := true } (.inr rfl)
    rw [allowingIn_eq]
    cases hr : p { s with allowsIn := true } with
    | ok a t =>
      rw [bind_of_ok hr]
      rfl
    | fault fault t =>
      rw [hr] at inner
      rw [bind_of_fault hr]
      exact .inr (or_self_iff.mp inner)
    | stuck =>
      rw [bind_of_stuck hr]
      trivial
  same s _ := by
    rw [allowingIn_eq, allowingIn_eq]
    exact bind_same (hp.same { s with allowsIn := true } (.inr rfl))

end Rules

/-! ### Loops -/

section Loops

lemma keepsIn_repeatedAtMost {turn turn' : Reader Turn} (h : KeepsIn anywhere turn turn')
    (bound : Nat) : KeepsIn anywhere (repeatedAtMost turn bound) (repeatedAtMost turn' bound) := by
  induction bound with
  | zero => exact inferInstanceAs (KeepsIn anywhere (fun _ => .stuck) (fun _ => .stuck))
  | succ bound ih =>
    refine .bind h fun u => ?_
    cases u with
    | last items => exact inferInstanceAs (KeepsIn anywhere (pure items) (pure items))
    | more items =>
      exact .bind ih fun more =>
        inferInstanceAs (KeepsIn anywhere (pure (items ++ more)) (pure (items ++ more)))

instance {turn turn' : Reader Turn} [h : KeepsIn anywhere turn turn'] :
    KeepsIn anywhere (repeatedly turn) (repeatedly turn') where
  keeps s hs := (keepsIn_repeatedAtMost h (s.ahead.length + 1)).keeps s hs
  same s hs := (keepsIn_repeatedAtMost h (s.ahead.length + 1)).same s hs

lemma keepsIn_grownAtMost {turn turn' : Node → Reader (Option Node)}
    (h : ∀ n, KeepsIn anywhere (turn n) (turn' n)) (bound : Nat) (n : Node) :
    KeepsIn anywhere (grownAtMost turn bound n) (grownAtMost turn' bound n) := by
  induction bound generalizing n with
  | zero => exact inferInstanceAs (KeepsIn anywhere (fun _ => .stuck) (fun _ => .stuck))
  | succ bound ih =>
    refine .bind (h n) fun r => ?_
    cases r with
    | none => exact inferInstanceAs (KeepsIn anywhere (pure n) (pure n))
    | some m => exact ih m

instance {turn turn' : Node → Reader (Option Node)} [h : ∀ n, KeepsIn anywhere (turn n) (turn' n)]
    (n : Node) : KeepsIn anywhere (growing turn n) (growing turn' n) where
  keeps s hs := (keepsIn_grownAtMost h (s.ahead.length + 1) n).keeps s hs
  same s hs := (keepsIn_grownAtMost h (s.ahead.length + 1) n).same s hs

/-- Where `in` is an operator it is one behind a fault, and so where the next statement starts. -/
instance {p p' : Reader Node} [hp : KeepsIn false p p'] :
    KeepsIn false (recovering p) (recovering p') where
  keeps s h := by
    have inOperator : s.allowsIn = true := h.resolve_left Bool.false_ne_true
    have first := hp.keeps s h
    unfold recovering
    cases hr : p s with
    | ok n t =>
      rw [hr] at first
      exact first
    | stuck => trivial
    | fault fault t =>
      rw [hr, inOperator] at first
      rw [inOperator]
      exact (allowsIn_skipAhead _ _).trans ((allowsIn_step _).trans (or_self_iff.mp first))
  same s h := by
    unfold recovering
    rw [hp.same s h]

end Loops

/-! ### Tokens and lists -/

instance (kind : TokenKind) : KeepsIn anywhere (accept kind) (accept kind) := by
  unfold accept
  infer_instance

instance (kind : TokenKind) (what : Expectation) :
    KeepsIn anywhere (expect kind what) (expect kind what) := by
  unfold expect
  infer_instance

instance : KeepsIn anywhere semicolon semicolon := by
  unfold semicolon
  infer_instance

instance (word : Bytes) (applies : Token → Bool) :
    KeepsIn anywhere (acceptWord word applies) (acceptWord word applies) := by
  unfold acceptWord
  infer_instance

instance (close : TokenKind) (holes : Bool) (item item' : Reader Node)
    [KeepsIn anywhere item item'] :
    KeepsIn anywhere (listTurn close holes item) (listTurn close holes item') := by
  unfold listTurn
  infer_instance

instance (close : TokenKind) (holes : Bool) (item item' : Reader Node)
    [KeepsIn anywhere item item'] :
    KeepsIn anywhere (list close holes item) (list close holes item') := by
  unfold list
  infer_instance

instance (statement statement' : Reader Node) (ends : List TokenKind)
    [KeepsIn false statement statement'] :
    KeepsIn false (statementTurn statement ends) (statementTurn statement' ends) := by
  unfold statementTurn
  infer_instance

instance (statement statement' : Reader Node) (ends : List TokenKind)
    [KeepsIn false statement statement'] :
    KeepsIn false (statements statement ends) (statements statement' ends) := by
  unfold statements
  infer_instance

end Reader

/-- Whether the nonterminal is part of an expression or a pattern, and no statement. -/
def Nonterminal.isPhrase : Nonterminal → Bool
  | .statement => false
  | _ => true

namespace Grammar

open Reader

/-- Readers of which only the one for statements may differ, where `in` is no operator. -/
class KeepReaders (readers readers' : Readers) : Prop where
  phrase : ∀ nt, nt.isPhrase = true → KeepsIn true (readers nt) (readers' nt)
  statement : KeepsIn false (readers .statement) (readers' .statement)

section Readers

variable {readers readers' : Readers} [h : KeepReaders readers readers'] {anywhere : Bool}

instance : KeepsIn anywhere (readers .primary) (readers' .primary) := (h.phrase _ rfl).mono

instance : KeepsIn anywhere (readers .newExpression) (readers' .newExpression) :=
  (h.phrase _ rfl).mono

instance : KeepsIn anywhere (readers .unary) (readers' .unary) := (h.phrase _ rfl).mono

instance : KeepsIn anywhere (readers .assignment) (readers' .assignment) := (h.phrase _ rfl).mono

instance : KeepsIn anywhere (readers .expression) (readers' .expression) := (h.phrase _ rfl).mono

instance : KeepsIn anywhere (readers .bindingTarget) (readers' .bindingTarget) :=
  (h.phrase _ rfl).mono

instance : KeepsIn anywhere (readers .bindingElement) (readers' .bindingElement) :=
  (h.phrase _ rfl).mono

instance (level : Nat) :
    KeepsIn anywhere (readers (.binary level)) (readers' (.binary level)) :=
  (h.phrase _ rfl).mono

instance : KeepsIn false (readers .statement) (readers' .statement) := h.statement

/-! ### Patterns -/

instance : KeepsIn anywhere propertyKey propertyKey := by
  unfold propertyKey
  infer_instance

instance : KeepsIn anywhere (computedKey readers) (computedKey readers') := by
  unfold computedKey
  infer_instance

instance (start : Span) :
    KeepsIn anywhere (computedEntry readers start) (computedEntry readers' start) := by
  unfold computedEntry
  infer_instance

instance (start : Span) (key : Token) :
    KeepsIn anywhere (entryValue readers start key) (entryValue readers' start key) := by
  unfold entryValue
  infer_instance

instance : KeepsIn anywhere (objectEntry readers) (objectEntry readers') := by
  unfold objectEntry objectRest
  infer_instance

instance : KeepsIn anywhere (objectPattern readers) (objectPattern readers') := by
  unfold objectPattern
  infer_instance

instance : KeepsIn anywhere (listElement readers) (listElement readers') := by
  unfold listElement restElement
  infer_instance

instance : KeepsIn anywhere (arrayPattern readers) (arrayPattern readers') := by
  unfold arrayPattern
  infer_instance

instance : KeepsIn anywhere (pattern readers) (pattern readers') := by
  unfold pattern
  infer_instance

instance : KeepsIn anywhere (bindingTarget readers) (bindingTarget readers') := by
  unfold bindingTarget
  infer_instance

instance : KeepsIn anywhere (bindingElement readers) (bindingElement readers') := by
  unfold bindingElement
  infer_instance

/-! ### Accesses -/

instance : KeepsIn anywhere (spread readers) (spread readers') := by
  unfold spread
  infer_instance

instance : KeepsIn anywhere (spreadable readers) (spreadable readers') := by
  unfold spreadable
  infer_instance

instance : KeepsIn anywhere (arguments readers) (arguments readers') := by
  unfold arguments
  infer_instance

instance (object : Node) : KeepsIn anywhere (index readers object) (index readers' object) := by
  unfold index
  infer_instance

instance (allowCall : Bool) (operand : Node) :
    KeepsIn anywhere (access readers allowCall operand) (access readers' allowCall operand) := by
  unfold access property
  infer_instance

instance (allowCall : Bool) (operand : Node) :
    KeepsIn anywhere (accesses readers allowCall operand)
      (accesses readers' allowCall operand) := by
  unfold accesses
  infer_instance

/-! ### Functions -/

instance : KeepsIn false (block readers) (block readers') := by
  unfold block
  infer_instance

instance : KeepsIn anywhere (parameters readers) (parameters readers') := by
  unfold parameters
  infer_instance

instance (start : Span) (flags : NodeFlags) (name : Node) :
    KeepsIn anywhere (functionRest readers start flags name)
      (functionRest readers' start flags name) := by
  unfold functionRest
  infer_instance

instance (start : Span) (flags : NodeFlags) :
    KeepsIn anywhere (method readers start flags) (method readers' start flags) := by
  unfold method
  infer_instance

instance (isExpression : Bool) (flags : NodeFlags) :
    KeepsIn anywhere (function readers isExpression flags)
      (function readers' isExpression flags) := by
  unfold function functionName
  infer_instance

instance (isAsync : Bool) :
    KeepsIn anywhere (arrowFunction readers isAsync) (arrowFunction readers' isAsync) := by
  unfold arrowFunction arrowParameters arrowBody
  infer_instance

/-! ### Literals -/

instance : KeepsIn anywhere (arrayLiteral readers) (arrayLiteral readers') := by
  unfold arrayLiteral
  infer_instance

instance (flags : NodeFlags) (applies : Token → Bool) :
    KeepsIn anywhere (modifiers flags applies) (modifiers flags applies) := by
  unfold modifiers
  infer_instance

instance (start : Span) (flags : NodeFlags) :
    KeepsIn anywhere (computedProperty readers start flags)
      (computedProperty readers' start flags) := by
  unfold computedProperty
  infer_instance

instance (start : Span) (flags : NodeFlags) (key : Token) :
    KeepsIn anywhere (memberFunction readers start flags key)
      (memberFunction readers' start flags key) := by
  unfold memberFunction
  infer_instance

instance (start : Span) (key : Token) :
    KeepsIn anywhere (keyedValue readers start key) (keyedValue readers' start key) := by
  unfold keyedValue
  infer_instance

instance : KeepsIn anywhere (keyedProperty readers) (keyedProperty readers') := by
  unfold keyedProperty
  infer_instance

instance : KeepsIn anywhere (objectProperty readers) (objectProperty readers') := by
  unfold objectProperty
  infer_instance

instance : KeepsIn anywhere (objectLiteral readers) (objectLiteral readers') := by
  unfold objectLiteral
  infer_instance

/-! ### Classes -/

instance (start : Span) (flags : NodeFlags) (name : Bytes) :
    KeepsIn anywhere (field readers start flags name) (field readers' start flags name) := by
  unfold field fieldValue
  infer_instance

instance (start : Span) (flags : NodeFlags) :
    KeepsIn anywhere (computedMember readers start flags)
      (computedMember readers' start flags) := by
  unfold computedMember unnamedMember
  infer_instance

instance (start : Span) (flags : NodeFlags) :
    KeepsIn anywhere (namedMember readers start flags) (namedMember readers' start flags) := by
  unfold namedMember
  infer_instance

instance : KeepsIn anywhere (classMember readers) (classMember readers') := by
  unfold classMember
  refine .bind inferInstance fun isBlock => ?_
  infer_instance

instance : KeepsIn anywhere (heritage readers) (heritage readers') := by
  unfold heritage
  infer_instance

instance : KeepsIn anywhere (memberTurn readers) (memberTurn readers') := by
  unfold memberTurn
  infer_instance

instance : KeepsIn anywhere (classBody readers) (classBody readers') := by
  unfold classBody
  infer_instance

instance (isExpression : Bool) :
    KeepsIn anywhere (classDefinition readers isExpression)
      (classDefinition readers' isExpression) := by
  unfold classDefinition className
  infer_instance

/-! ### Expressions -/

instance : KeepsIn anywhere (parenthesized readers) (parenthesized readers') := by
  unfold parenthesized
  infer_instance

instance (kind : NodeKind) (keepsValue : Bool) :
    KeepsIn anywhere (literal kind keepsValue) (literal kind keepsValue) := by
  unfold literal
  infer_instance

instance (isExpression : Bool) :
    KeepsIn anywhere (asyncFunction readers isExpression)
      (asyncFunction readers' isExpression) := by
  unfold asyncFunction
  infer_instance

instance : KeepsIn anywhere (primary readers) (primary readers') := by
  unfold primary
  refine .bind inferInstance fun isAsync => ?_
  split
  · infer_instance
  · refine .bind inferInstance fun t => ?_
    split
    · infer_instance
    · split <;> infer_instance

instance : KeepsIn anywhere (newExpression readers) (newExpression readers') := by
  unfold newExpression created createdArguments
  infer_instance

instance : KeepsIn anywhere (operand readers) (operand readers') := by
  unfold operand operandBase afterOperand
  infer_instance

instance : KeepsIn anywhere (unary readers) (unary readers') := by
  unfold unary
  infer_instance

instance (floor : Nat) : KeepsIn anywhere (binary readers floor) (binary readers' floor) := by
  unfold binary binaryTurn
  infer_instance

instance : KeepsIn anywhere (conditional readers) (conditional readers') := by
  unfold conditional
  infer_instance

instance (start : Span) (target : Node) :
    KeepsIn anywhere (assignmentRest readers start target)
      (assignmentRest readers' start target) := by
  unfold assignmentRest
  infer_instance

instance : KeepsIn anywhere (assignment readers) (assignment readers') := by
  unfold assignment
  infer_instance

instance : KeepsIn anywhere (expression readers) (expression readers') := by
  unfold expression commaTurn
  infer_instance

/-! ### Statements -/

instance : KeepsIn anywhere (initializer readers) (initializer readers') := by
  unfold initializer
  infer_instance

instance : KeepsIn anywhere (declarator readers) (declarator readers') := by
  unfold declarator
  infer_instance

instance (kind : NodeKind) :
    KeepsIn anywhere (declaration readers kind) (declaration readers' kind) := by
  unfold declaration declaratorTurn
  infer_instance

instance (kind : NodeKind) :
    KeepsIn anywhere (declarationStatement readers kind) (declarationStatement readers' kind) := by
  unfold declarationStatement
  infer_instance

instance (opening : Expectation) :
    KeepsIn anywhere (condition readers opening) (condition readers' opening) := by
  unfold condition
  infer_instance

instance : KeepsIn false (ifStatement readers) (ifStatement readers') := by
  unfold ifStatement elseBranch
  infer_instance

instance : KeepsIn false (whileStatement readers) (whileStatement readers') := by
  unfold whileStatement
  infer_instance

instance : KeepsIn false (doWhileStatement readers) (doWhileStatement readers') := by
  unfold doWhileStatement
  infer_instance

instance : KeepsIn anywhere absent absent := by
  unfold absent
  infer_instance

/-- Behind the first part of a head `in` is what it was before. -/
instance : KeepsIn anywhere (forStart readers) (forStart readers') := by
  unfold forStart
  refine .withoutIn (.bind inferInstance fun t => ?_)
  split <;> infer_instance

instance : KeepsIn false (forBody readers) (forBody readers') := by
  unfold forBody
  infer_instance

instance (close : TokenKind) :
    KeepsIn anywhere (forPart readers close) (forPart readers' close) := by
  unfold forPart
  infer_instance

instance (isIn : Bool) : KeepsIn anywhere (forSubject readers isIn) (forSubject readers' isIn) := by
  unfold forSubject
  infer_instance

instance (start : Span) (target : Node) :
    KeepsIn false (forEach readers start target) (forEach readers' start target) := by
  unfold forEach
  infer_instance

instance (start : Span) (init : Node) :
    KeepsIn false (forClassic readers start init) (forClassic readers' start init) := by
  unfold forClassic
  infer_instance

instance : KeepsIn false (forStatement readers) (forStatement readers') := by
  unfold forStatement
  infer_instance

instance : KeepsIn anywhere (clauseLabel readers) (clauseLabel readers') := by
  unfold clauseLabel
  infer_instance

instance : KeepsIn false (clause readers) (clause readers') := by
  unfold clause
  infer_instance

instance : KeepsIn false (clauseTurn readers) (clauseTurn readers') := by
  unfold clauseTurn
  infer_instance

instance : KeepsIn false (switchStatement readers) (switchStatement readers') := by
  unfold switchStatement
  refine .bind inferInstance fun keyword => .bind inferInstance fun _ => ?_
  infer_instance

instance : KeepsIn false (catchClause readers) (catchClause readers') := by
  unfold catchClause catchParameter
  infer_instance

instance (isThere : Bool) : KeepsIn false (handler readers isThere) (handler readers' isThere) := by
  unfold handler
  infer_instance

instance : KeepsIn false (finalizer readers) (finalizer readers') := by
  unfold finalizer
  infer_instance

instance : KeepsIn false (tryStatement readers) (tryStatement readers') := by
  unfold tryStatement
  infer_instance

instance : KeepsIn anywhere (returnStatement readers) (returnStatement readers') := by
  unfold returnStatement returnValue
  infer_instance

instance : KeepsIn anywhere (throwStatement readers) (throwStatement readers') := by
  unfold throwStatement
  infer_instance

instance (kind : NodeKind) : KeepsIn anywhere (jump kind) (jump kind) := by
  unfold jump jumpLabel
  infer_instance

instance : KeepsIn false (labeled readers) (labeled readers') := by
  unfold labeled
  infer_instance

instance : KeepsIn anywhere (expressionStatement readers) (expressionStatement readers') := by
  unfold expressionStatement
  infer_instance

instance : KeepsIn false (wordStatement readers) (wordStatement readers') := by
  unfold wordStatement
  infer_instance

instance : KeepsIn false (statement readers) (statement readers') := by
  unfold statement emptyStatement
  refine .bind inferInstance fun t => ?_
  split <;> infer_instance

/-! ### The recursion -/

instance : KeepReaders (production readers) (production readers') where
  phrase nt phrase := by
    cases nt with
    | statement => cases phrase
    | _ =>
      unfold production
      infer_instance
  statement := by
    unfold production
    infer_instance

end Readers

instance (depth : Nat) : KeepReaders (read depth) (read depth) := by
  induction depth with
  | zero =>
    exact ⟨fun _ _ => inferInstanceAs (KeepsIn true (fun _ => .stuck) (fun _ => .stuck)),
      inferInstanceAs (KeepsIn false (fun _ => .stuck) (fun _ => .stuck))⟩
  | succ depth ih => exact inferInstanceAs (KeepReaders (production (read depth)) (production _))

end Grammar

end ModuleLint
