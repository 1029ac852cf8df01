import ModuleLint.Check.Bindings
import ModuleLint.Check.Finding
import ModuleLint.Syntax.Path
import ModuleLint.Syntax.Walk

/-!
The rules for files that use `goog.module`.

A checker walks each module file and reports where a rule is broken. It knows the name that the
current file declared, from the `goog.module` call on to the end of the script. What it has to tell
is a list of notices: reports, and events that are only logged.
-/

namespace ModuleLint

/-- What a check has to tell. -/
inductive CheckNotice
  /-- A run over a program with so many scripts starts. -/
  | started (scripts : Nat)
  /-- A run over one script starts. -/
  | rechecking (script : Bytes)
  /-- A script is, or is not, a module file. -/
  | classified (script : Bytes) (isModule : Bool)
  /-- A file declares its module name. -/
  | named (module : Bytes)
  | found (report : Report)
  /-- The pass over imports runs. -/
  | importsChecked
  deriving DecidableEq, Repr

/-- What a checker knows and has told so far. -/
structure CheckState where
  /-- The name that the current file declared. -/
  moduleName : Option Bytes
  notices : List CheckNotice
  deriving DecidableEq, Repr

namespace CheckState

def start : CheckState := ⟨none, []⟩

def tell (s : CheckState) (notice : CheckNotice) : CheckState :=
  { s with notices := s.notices ++ [notice] }

def report (s : CheckState) (kind : FindingKind) (n : Node) : CheckState :=
  s.tell (.found ⟨kind, n.span⟩)

/-! ### Rules -/

/-- A first `goog.module` call names the module, with the string it is given or else with nothing. A
further one breaks a rule. -/
def moduleCall (s : CheckState) (call : Node) : CheckState :=
  if s.moduleName.isSome then s.report .multipleModules call
  else
    let name := ((call.second?.filter (·.kind == .stringLit)).map (·.value)).getD []
    { s with moduleName := some name }.tell (.named name)

/-- The declaration whose declarator takes the value of a node with these ancestors: directly, or as
a property of it that names one variable. -/
def consumingDeclarator : List Node → Option (List Node)
  | parent :: above =>
    match parent.kind with
    | .name | .destructuring => some above
    | .getProp =>
      match above with
      | name :: above => if name.kind = .name then some above else none
      | [] => none
    | _ => none
  | [] => none

/-- A `goog.require` call stands alone or is the value of a declaration that binds one name. -/
def requireCall (s : CheckState) (ancestors : List Node) (call : Node) : CheckState :=
  if Node.optionIs .exprStmt ancestors.head? then s
  else
    match consumingDeclarator ancestors with
    | some (declaration :: _) =>
      if ¬ declaration.kind.isDeclaration then s.report .requireNotAtTopLevel call
      else if declaration.bindings > 1 then s.report .oneRequirePerDeclaration declaration
      else s
    | _ => s.report .requireNotAtTopLevel call

/-- The keys of an exported object each have a value. -/
def exportsAssignment (s : CheckState) (assign : Node) : CheckState :=
  match assign.last? with
  | some value =>
    if value.kind = .objectLit then
      (value.children.filter fun e => e.kind == .stringKey && e.children.isEmpty).foldl
        (report · .shorthandExports ·) s
    else s
  | none => s

/-- In `a.b.c` only the outermost access names the whole path. -/
def propertyAccess (s : CheckState) (parent : Option Node) (n : Node) : CheckState :=
  if s.moduleName.any n.spells ∧ ¬ Node.optionIs .getProp parent then s.report .globalName n
  else s

/-- A call of one of the functions that the rules know. -/
def call (s : CheckState) (ancestors : List Node) (n : Node) : CheckState :=
  if n.calls (ascii "goog.module") then s.moduleCall n
  else if n.calls (ascii "goog.provide") then s.report .moduleAndProvides n
  else if n.calls (ascii "goog.require") then s.requireCall ancestors n
  else s

/-- What the rules say of a node, after its children. -/
def visit (c : WalkContext) (n : Node) (s : CheckState) : CheckState :=
  match n.kind with
  | .call => s.call c.ancestors n
  | .assign => if n.first?.any (·.spells (ascii "exports")) then s.exportsAssignment n else s
  | .thisExpr => if c.isOutsideFunctions then s.report .referencesThis n else s
  | .throwStmt => if c.isOutsideFunctions then s.report .usesThrow n else s
  | .getProp => s.propertyAccess c.parent? n
  | .script => { s with moduleName := none }
  | _ => s

/-- Scripts that are no module files are not walked. -/
def enters (isModuleFile : Node → Bool) (n : Node) (s : CheckState) : Bool × CheckState :=
  if n.kind = .script then (isModuleFile n, s.tell (.classified n.value (isModuleFile n)))
  else (true, s)

end CheckState

/-- A checker that goes into the scripts that a predicate holds of. -/
def moduleVisitor (isModuleFile : Node → Bool) : Visitor CheckState where
  enters _ := CheckState.enters isModuleFile
  visit := CheckState.visit

namespace CheckState

/-- Checks the node at a spot. -/
def walk (isModuleFile : Node → Bool) (spot : Spot) (s : CheckState) : CheckState :=
  (moduleVisitor isModuleFile).walk (.start (spot.above.map (·.1))) spot.node s

/-- Checks a program, and then its imports if a pass over them is given. -/
def checkProgram (isModuleFile : Node → Bool) (hasImportPass : Bool) (root : Spot)
    (s : CheckState) : CheckState :=
  let s := (s.tell (.started root.node.children.length)).walk isModuleFile root
  if hasImportPass then s.tell .importsChecked else s

/-- Checks one script again. -/
def recheckScript (isModuleFile : Node → Bool) (script : Spot) (s : CheckState) : CheckState :=
  (s.tell (.rechecking script.node.value)).walk isModuleFile script

/-- The reports among the notices. -/
def reports (s : CheckState) : List Report :=
  s.notices.filterMap fun | .found r => some r | _ => none

end CheckState

end ModuleLint
