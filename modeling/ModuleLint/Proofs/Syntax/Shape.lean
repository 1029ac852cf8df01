import Mathlib.Tactic.Common
import ModuleLint.Syntax.Path

/-!
The shape of syntax trees.

`ChildrenFit` says for each kind of node which children it has, in order; a tree is well formed if
the children of each of its nodes fit. Kinds fall into classes, such as expressions and binding
targets. A node of a class that binds or reads a name has it without an initializer: only a
declarator has one.
-/

namespace ModuleLint

/-- Kinds of nodes that have a value. -/
def NodeKind.isExpression : NodeKind → Bool
  | .name | .function | .classDef | .assign | .assignOp | .conditional | .binary | .unary | .update
  | .comma | .call | .new | .getProp | .getElem | .thisExpr | .superExpr | .stringLit | .numberLit
  | .trueLit | .falseLit | .nullLit | .regexLit | .templateLit | .arrayLit | .objectLit => true
  | _ => false

/-- Kinds of nodes that stand in a block. -/
def NodeKind.isStatement : NodeKind → Bool
  | .block | .exprStmt | .empty | .label | .varDecl | .letDecl | .constDecl | .function | .classDef
  | .returnStmt | .throwStmt | .ifStmt | .whileStmt | .doWhileStmt | .forStmt | .forInStmt
  | .forOfStmt | .switchStmt | .tryStmt | .breakStmt | .continueStmt => true
  | _ => false

namespace Node

/-! ### Classes of nodes -/

def IsBareName (n : Node) : Prop := n.kind = .name ∧ n.children = []

def IsExpression (n : Node) : Prop := n.kind.isExpression ∧ (n.kind = .name → n.children = [])

def IsStatement (n : Node) : Prop := n.kind.isStatement

/-- An argument of a call or an element of an array. -/
def IsArgument (n : Node) : Prop := n.IsExpression ∨ n.kind = .spread

def IsPattern (n : Node) : Prop := n.kind = .objectPattern ∨ n.kind = .arrayPattern

/-- What can be bound: a name or a pattern. -/
def IsTarget (n : Node) : Prop := n.IsBareName ∨ n.IsPattern

/-- A target with a default value or without. -/
def IsElement (n : Node) : Prop := n.IsTarget ∨ n.kind = .defaultValue

/-- An element of an array pattern or a parameter. -/
def IsParameter (n : Node) : Prop := n.IsElement ∨ n.kind = .rest

/-- An entry of an object pattern. Its key always has a value. -/
def IsEntry (n : Node) : Prop :=
  n.kind = .rest ∨ (n.kind = .stringKey ∧ ∃ value, n.children = [value] ∧ value.IsElement) ∨
    (n.kind = .computedProp ∧ ∃ key value, n.children = [key, value] ∧ value.IsElement)

/-- A property of an object literal. -/
def IsProperty (n : Node) : Prop :=
  n.kind = .spread ∨ n.kind = .memberFunction ∨ n.kind = .computedProp ∨ n.kind = .stringKey

/-- A member of a class. -/
def IsMember (n : Node) : Prop :=
  n.kind = .memberFunction ∨ n.kind = .memberField ∨ n.kind = .computedProp

def IsDeclarator (n : Node) : Prop := n.kind = .name ∨ n.kind = .destructuring

/-- The first part of a `for` head. -/
def IsLoopStart (n : Node) : Prop := n.kind.isDeclaration ∨ n.kind = .empty ∨ n.IsExpression

def IsExpressionOrEmpty (n : Node) : Prop := n.IsExpression ∨ n.kind = .empty

/-! ### Children -/

/-- As many nodes as classes, each of the class at its place. -/
def InOrder : List (Node → Prop) → List Node → Prop
  | [], [] => True
  | C :: classes, n :: l => C n ∧ InOrder classes l
  | _, _ => False

/-- At most one node, of a class. -/
def AtMostOne (C : Node → Prop) : List Node → Prop
  | [] => True
  | [n] => C n
  | _ => False

/-- A node of one class and then any number of another. -/
def Headed (C D : Node → Prop) : List Node → Prop
  | [] => False
  | n :: l => C n ∧ ∀ m ∈ l, D m

def Each (C : Node → Prop) (l : List Node) : Prop := ∀ n ∈ l, C n

/-- The children that a node of a kind has. -/
def ChildrenFit : NodeKind → List Node → Prop
  | .root => Each (·.kind = .script)
  | .script | .block => Each IsStatement
  | .exprStmt | .throwStmt => InOrder [IsExpression]
  | .label => InOrder [IsStatement]
  | .varDecl | .letDecl | .constDecl => Headed IsDeclarator IsDeclarator
  | .name | .memberField | .returnStmt => AtMostOne IsExpression
  | .destructuring => fun l => InOrder [IsPattern] l ∨ InOrder [IsPattern, IsExpression] l
  | .objectPattern => Each IsEntry
  | .arrayPattern => Each fun n => n.IsParameter ∨ n.kind = .empty
  | .defaultValue => InOrder [IsTarget, IsExpression]
  | .rest => InOrder [IsTarget]
  | .function =>
    InOrder [IsBareName, (·.kind = .paramList), fun n => n.kind = .block ∨ n.IsExpression]
  | .paramList => Each IsParameter
  | .classDef =>
    InOrder [fun n => n.IsBareName ∨ n.kind = .empty, IsExpressionOrEmpty, (·.kind = .classMembers)]
  | .classMembers => Each IsMember
  | .memberFunction => InOrder [(·.kind = .function)]
  | .ifStmt => fun l =>
    InOrder [IsExpression, IsStatement] l ∨ InOrder [IsExpression, IsStatement, IsStatement] l
  | .whileStmt => InOrder [IsExpression, IsStatement]
  | .doWhileStmt => InOrder [IsStatement, IsExpression]
  | .forStmt => InOrder [IsLoopStart, IsExpressionOrEmpty, IsExpressionOrEmpty, IsStatement]
  | .forInStmt | .forOfStmt => InOrder [IsLoopStart, IsExpression, IsStatement]
  | .switchStmt => Headed IsExpression fun n => n.kind = .caseClause ∨ n.kind = .defaultClause
  | .caseClause => InOrder [IsExpression, (·.kind = .block)]
  | .defaultClause => InOrder [(·.kind = .block)]
  | .tryStmt => fun l =>
    InOrder [(·.kind = .block), fun n => n.kind = .catchClause ∨ n.kind = .empty] l ∨
      InOrder
        [(·.kind = .block), fun n => n.kind = .catchClause ∨ n.kind = .empty, (·.kind = .block)] l
  | .catchClause => InOrder [fun n => n.IsTarget ∨ n.kind = .empty, (·.kind = .block)]
  | .conditional => InOrder [IsExpression, IsExpression, IsExpression]
  | .assign | .assignOp | .binary | .comma | .getElem => InOrder [IsExpression, IsExpression]
  | .unary | .update | .getProp | .spread => InOrder [IsExpression]
  | .call | .new => Headed IsExpression IsArgument
  | .arrayLit => Each fun n => n.IsArgument ∨ n.kind = .empty
  | .objectLit => Each IsProperty
  | .stringKey => AtMostOne fun n => n.IsExpression ∨ n.IsElement
  | .computedProp =>
    InOrder [IsExpression, fun n => n.IsExpression ∨ n.IsElement ∨ n.kind = .memberField]
  | .empty | .breakStmt | .continueStmt | .thisExpr | .superExpr | .stringLit | .numberLit
  | .trueLit | .falseLit | .nullLit | .regexLit | .templateLit => InOrder []

/-- The children of each node of the tree fit. -/
inductive WellFormed : Node → Prop
  | mk {n : Node} (fit : ChildrenFit n.kind n.children) (below : ∀ c ∈ n.children, WellFormed c) :
    WellFormed n

lemma WellFormed.fit {n : Node} (h : n.WellFormed) : ChildrenFit n.kind n.children :=
  match h with | .mk fit _ => fit

lemma WellFormed.child {n c : Node} (h : n.WellFormed) (hc : c ∈ n.children) : c.WellFormed :=
  match h with | .mk _ below => below c hc

/-- A well-formed node of a class. -/
def As (C : Node → Prop) (n : Node) : Prop := C n ∧ n.WellFormed

variable {n : Node}

lemma isStatement_of_declaration (h : n.kind.isDeclaration) : n.IsStatement := by
  unfold IsStatement
  cases hk : n.kind <;> rw [hk] at h <;> first | rfl | cases h

lemma As.mono {C D : Node → Prop} (h : n.As C) (hCD : C n → D n) : n.As D := ⟨hCD h.1, h.2⟩

lemma as_expression (kind : n.kind.isExpression) (noName : n.kind ≠ .name)
    (fit : ChildrenFit n.kind n.children) (below : ∀ c ∈ n.children, c.WellFormed) :
    n.As IsExpression :=
  ⟨⟨kind, fun h => absurd h noName⟩, .mk fit below⟩

lemma as_bareName {value : Bytes} {span : Span} : (leaf .name value span).As IsBareName :=
  ⟨⟨rfl, rfl⟩, .mk trivial (by simp)⟩

lemma as_empty {span : Span} : (of .empty span []).As (·.kind = .empty) :=
  ⟨rfl, .mk trivial (by simp)⟩

lemma As.isTarget (h : n.As IsBareName) : n.As IsTarget := h.mono .inl

lemma As.isElement (h : n.As IsTarget) : n.As IsElement := h.mono .inl

lemma As.isParameter (h : n.As IsElement) : n.As IsParameter := h.mono .inl

lemma As.isArgument (h : n.As IsExpression) : n.As IsArgument := h.mono .inl

lemma As.orEmpty (h : n.As IsExpression) : n.As IsExpressionOrEmpty := h.mono .inl

end Node

end ModuleLint
