import ModuleLint.Syntax.Node

/-!
Places in a tree.

A path is the list of child numbers from the root. `Spot` is a node with the nodes above it, nearest
first, each with the number of the child taken.
-/

namespace ModuleLint

/-- A node in a tree, with its ancestors from its parent up and the child number in each. -/
structure Spot where
  node : Node
  above : List (Node × Nat)

namespace Spot

def root (n : Node) : Spot := ⟨n, []⟩

/-- The spot of a child. -/
def child? (s : Spot) (i : Nat) : Option Spot :=
  s.node.children[i]?.map fun c => ⟨c, (s.node, i) :: s.above⟩

/-- The spot that a path leads to. -/
def at? (s : Spot) (path : List Nat) : Option Spot := path.foldlM child? s

def parent? (s : Spot) : Option Node := s.above.head?.map (·.1)

/-- The next child of the parent. -/
def next? (s : Spot) : Option Node := s.above.head?.bind fun (p, i) => p.children[i + 1]?

end Spot

end ModuleLint
