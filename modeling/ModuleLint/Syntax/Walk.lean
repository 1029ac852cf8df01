import ModuleLint.Syntax.Node

/-!
Walks over a tree.

A visitor is asked at each node whether to go in, before the children, and is told of the node after
them. A node that is refused is left out with all below it. The walk keeps count of the function
scopes around it and of the script it is in; a function itself stands in the scope around it.
-/

namespace ModuleLint

/-- Where a walk stands. -/
structure WalkContext where
  /-- The nodes above, nearest first. Those above the start of the walk are among them. -/
  ancestors : List Node
  /-- The number of function scopes entered since the start. -/
  functionDepth : Nat
  /-- The innermost script that the walk is in. -/
  script : Option Node

namespace WalkContext

/-- The context of the start of a walk below some ancestors. -/
def start (ancestors : List Node) : WalkContext := ⟨ancestors, 0, none⟩

def parent? (c : WalkContext) : Option Node := c.ancestors.head?

/-- Outside of every function that the walk went into. -/
def isOutsideFunctions (c : WalkContext) : Bool := c.functionDepth == 0

/-- The context in which a node is told of: a script is in itself. -/
def visiting (c : WalkContext) (n : Node) : WalkContext :=
  { c with script := if n.kind = .script then some n else c.script }

/-- The context of a node's children. -/
def inside (c : WalkContext) (n : Node) : WalkContext :=
  ⟨n :: c.ancestors, c.functionDepth + n.kind.opensFunctionScope.toNat, (c.visiting n).script⟩

end WalkContext

/-- What is done at each node, on a state of its own. -/
structure Visitor (σ : Type) where
  /-- Whether to go in. -/
  enters : WalkContext → Node → σ → Bool × σ
  visit : WalkContext → Node → σ → σ

namespace Visitor

variable {σ : Type} (v : Visitor σ)

mutual

/-- Walks a tree. -/
def walk (c : WalkContext) : Node → σ → σ
  | ⟨kind, value, span, flags, children⟩, s =>
    let n : Node := ⟨kind, value, span, flags, children⟩
    match v.enters c n s with
    | (false, s) => s
    | (true, s) => v.visit (c.visiting n) n (walkAll (c.inside n) children s)

/-- Walks trees in order. -/
def walkAll (c : WalkContext) : List Node → σ → σ
  | [], s => s
  | n :: rest, s => walkAll c rest (walk c n s)

end

end Visitor

end ModuleLint
