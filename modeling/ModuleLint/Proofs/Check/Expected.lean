import ModuleLint.Check.Rules
import ModuleLint.Proofs.Syntax.Postorder

/-!
The reports that a script deserves, without a checker.

Each rule says what it has to report at a place, from the place alone or from the places before it
in post-order. The expected reports of a script are those of its places, in post-order.
-/

namespace ModuleLint

namespace Spot

def callsModule (t : Spot) : Bool := t.node.calls (ascii "goog.module")

/-- The name that a call gives a module: the string that it is given, or else nothing. -/
def givenName (t : Spot) : Bytes :=
  match t.node.second? with
  | some argument => if argument.kind = .stringLit then argument.value else []
  | none => []

/-- The name that the first `goog.module` call among some places gives. -/
def declaredName (l : List Spot) : Option Bytes := (l.find? callsModule).map givenName

/-! ### Rules -/

/-- A `goog.module` call after another one. -/
def furtherModule (before : List Spot) (t : Spot) : List Report :=
  if t.callsModule ∧ before.any callsModule then [⟨.multipleModules, t.node.span⟩] else []

def provide (t : Spot) : List Report :=
  if t.node.calls (ascii "goog.provide") then [⟨.moduleAndProvides, t.node.span⟩] else []

/-- The declaration of the declarator that comes first among some ancestors, if it is of a kind. -/
def declarationOf (kinds : List NodeKind) : List Node → Option Node
  | declarator :: declaration :: _ =>
    if declarator.kind ∈ kinds ∧ declaration.kind.isDeclaration then some declaration else none
  | _ => none

/-- The declaration that takes a value, given the ancestors of the value: as a whole, or a property
of it for a single name. -/
def consumer : List Node → Option Node
  | [] => none
  | parent :: above =>
    if parent.kind = .getProp then declarationOf [.name] above
    else declarationOf [.name, .destructuring] (parent :: above)

/-- A `goog.require` call that is neither a statement nor the value of a declaration of one name. -/
def require (t : Spot) : List Report :=
  if ¬ t.node.calls (ascii "goog.require") ∨ Node.optionIs .exprStmt t.ancestors.head? then []
  else
    match consumer t.ancestors with
    | some declaration =>
      if declaration.bindings > 1 then [⟨.oneRequirePerDeclaration, declaration.span⟩] else []
    | none => [⟨.requireNotAtTopLevel, t.node.span⟩]

/-- The keys without a value of an object that is assigned to `exports`. -/
def shorthands (t : Spot) : List Report :=
  match t.node.kind, t.node.children with
  | .assign, [target, value] =>
    if target.spells (ascii "exports") ∧ value.kind = .objectLit then
      (value.children.filter fun e => e.kind == .stringKey && e.children.isEmpty).map fun key =>
        ⟨.shorthandExports, key.span⟩
    else []
  | _, _ => []

/-- A node of a kind that stands below no function and no field of a class. -/
def outsideFunctions (kind : NodeKind) (finding : FindingKind) (t : Spot) : List Report :=
  if t.node.kind = kind ∧ ∀ n ∈ t.ancestors, ¬ n.kind.opensFunctionScope then
    [⟨finding, t.node.span⟩]
  else []

/-- A whole access path that spells the name that was declared before. -/
def globalName (before : List Spot) (t : Spot) : List Report :=
  if t.node.kind = .getProp ∧ ¬ Node.optionIs .getProp t.ancestors.head? ∧
      (declaredName before).any t.node.spells then
    [⟨.globalName, t.node.span⟩]
  else []

/-- What all rules report at a place. -/
def expected (before : List Spot) (t : Spot) : List Report :=
  t.furtherModule before ++ t.provide ++ t.require ++ t.shorthands ++
    t.outsideFunctions .thisExpr .referencesThis ++ t.outsideFunctions .throwStmt .usesThrow ++
    t.globalName before

end Spot

/-- What all rules report in a tree. -/
def Node.expectedReports (n : Node) : List Report :=
  let order := n.postorder []
  order.zipIdx.flatMap fun (t, i) => t.expected (order.take i)

end ModuleLint
