import ModuleLint.Syntax.Node

/-!
The number of names that a declaration binds.

Each entry of a destructuring pattern counts, and nested patterns count their entries. A key or
computed property without a value counts as one.
-/

namespace ModuleLint.Node

mutual

/-- The names bound by a target: a name, a pattern, or one of these with a default value or dots. -/
def targetBindings : Node → Nat
  | ⟨.name, _, _, _, _⟩ => 1
  | ⟨.defaultValue, _, _, _, target :: _⟩ => targetBindings target
  | ⟨.rest, _, _, _, target :: _⟩ => targetBindings target
  | ⟨.objectPattern, _, _, _, entries⟩ => entryBindings entries
  | ⟨.arrayPattern, _, _, _, entries⟩ => entryBindings entries
  | _ => 0

/-- The names bound by the entries of a pattern. Holes bind none. -/
def entryBindings : List Node → Nat
  | [] => 0
  | ⟨.stringKey, _, _, _, value :: _⟩ :: rest => targetBindings value + entryBindings rest
  | ⟨.stringKey, _, _, _, []⟩ :: rest => 1 + entryBindings rest
  | ⟨.computedProp, _, _, _, _ :: value :: _⟩ :: rest => targetBindings value + entryBindings rest
  | ⟨.computedProp, _, _, _, _⟩ :: rest => 1 + entryBindings rest
  | ⟨.empty, _, _, _, _⟩ :: rest => entryBindings rest
  | target :: rest => targetBindings target + entryBindings rest

end

/-- The names bound by a declarator: a name, or a destructuring of the pattern that comes first. -/
def declaratorBindings (declarator : Node) : Nat :=
  match declarator.kind, declarator.children with
  | .name, _ => 1
  | .destructuring, pattern :: _ => pattern.targetBindings
  | _, _ => 0

/-- The names bound by a declaration. -/
def bindings (declaration : Node) : Nat :=
  declaration.children.foldr (fun declarator n => declaratorBindings declarator + n) 0

end ModuleLint.Node
