import ModuleLint.Source
import ModuleLint.Syntax.Kind

/-!
Syntax trees.

A node has a kind, a text, a span, flags and children; what the text and each child mean depends on
the kind. Nothing here asks that a tree has the shape that the grammar gives it.
-/

namespace ModuleLint

/-- Yes-or-no attributes of a node. -/
structure NodeFlags where
  isArrow : Bool := false
  isStatic : Bool := false
  isGetter : Bool := false
  isSetter : Bool := false
  isAfterOperand : Bool := false
  isAsync : Bool := false
  deriving DecidableEq, Repr, Inhabited

/-- The flags as a sum of powers of two, in the order of the fields. -/
def NodeFlags.toBits (f : NodeFlags) : Nat :=
  f.isArrow.toNat + 2 * f.isStatic.toNat + 4 * f.isGetter.toNat + 8 * f.isSetter.toNat +
    16 * f.isAfterOperand.toNat + 32 * f.isAsync.toNat

structure Node where
  kind : NodeKind
  value : Bytes
  span : Span
  flags : NodeFlags
  children : List Node
  deriving Repr

namespace Node

/-- A node without a text or flags. -/
def of (kind : NodeKind) (span : Span) (children : List Node) : Node :=
  ⟨kind, [], span, {}, children⟩

/-- A node with a text and no children. -/
def leaf (kind : NodeKind) (value : Bytes) (span : Span) : Node := ⟨kind, value, span, {}, []⟩

instance : Inhabited Node := ⟨of default default []⟩

@[simp] theorem kind_of (kind : NodeKind) (span : Span) (l : List Node) :
    (of kind span l).kind = kind := rfl

@[simp] theorem children_of (kind : NodeKind) (span : Span) (l : List Node) :
    (of kind span l).children = l := rfl

@[simp] theorem children_leaf (kind : NodeKind) (value : Bytes) (span : Span) :
    (leaf kind value span).children = [] := rfl

def first? (n : Node) : Option Node := n.children[0]?

def second? (n : Node) : Option Node := n.children[1]?

def last? (n : Node) : Option Node := n.children.getLast?

/-- Whether the node is there and of a kind. -/
def optionIs (kind : NodeKind) (n : Option Node) : Bool := n.any (·.kind == kind)

/-! ### Access paths -/

/-- The segments of an access path: the name, `this` or `super` at its root and the properties read
from it, in order. No other shape, such as `a().b` or `a[0].b`, is a path. -/
def path? : Node → Option (List Bytes)
  | ⟨.name, value, _, _, _⟩ => some [value]
  | ⟨.thisExpr, _, _, _, _⟩ => some [ascii "this"]
  | ⟨.superExpr, _, _, _, _⟩ => some [ascii "super"]
  | ⟨.getProp, value, _, _, object :: _⟩ => object.path?.map (· ++ [value])
  | _ => none

/-- The access path with its segments joined by dots. -/
def dottedName? (n : Node) : Option Bytes := n.path?.map (Bytes.join [Byte.dot])

/-- Whether the node spells exactly a dotted path. -/
def spells (n : Node) (name : Bytes) : Bool := n.dottedName? == some name

/-- Whether the node calls what spells `callee`. -/
def calls (n : Node) (callee : Bytes) : Bool :=
  n.kind == .call && n.first?.any (·.spells callee)

/-! ### Module files -/

/-- A directive: a statement that is a string and nothing else. -/
def isDirective (n : Node) : Bool := n.kind == .exprStmt && optionIs .stringLit n.first?

/-- Whether the first statement after the directives is a call of `goog.module`. -/
def isModuleFile (script : Node) : Bool :=
  match script.children.dropWhile isDirective with
  | [] => false
  | n :: _ => n.kind == .exprStmt && n.first?.any (·.calls (ascii "goog.module"))

/-! ### Text -/

mutual

/-- The tree as nested parentheses: kind, then the text in quotes unless it is empty, then the
children. -/
def sexpr : Node → Bytes
  | ⟨kind, value, _, _, children⟩ =>
    byte '(' :: kind.text ++
      (if value.isEmpty then [] else ascii " \"" ++ value ++ [Byte.doubleQuote]) ++
      sexprs children ++ [byte ')']

/-- The trees, each after a space. -/
def sexprs : List Node → Bytes
  | [] => []
  | n :: rest => Byte.space :: n.sexpr ++ sexprs rest

end

end Node

/-- The tree of a program: its scripts in order. -/
def program (scripts : List Node) : Node :=
  let span :=
    match scripts.head?, scripts.getLast? with
    | some a, some b => a.span.merge b.span
    | _, _ => Span.none
  Node.of .root span scripts

end ModuleLint
