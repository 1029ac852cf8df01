import ModuleLint.Log.Record
import ModuleLint.Source

/-!
Findings: what a check reports, at which level, and where.

Each kind has a key, a fixed message and the level it is reported at unless another is chosen.
-/

namespace ModuleLint

inductive CheckLevel
  | off
  | warning
  | error
  deriving DecidableEq, Repr, Inhabited

namespace CheckLevel

def text : CheckLevel → Bytes
  | .off => ascii "off"
  | .warning => ascii "warning"
  | .error => ascii "error"

/-- The level that a text names; `warn` is short for `warning`. -/
def ofText? (text : Bytes) : Option CheckLevel :=
  if text = ascii "warn" then some .warning else [off, warning, error].find? (·.text == text)

/-- The level with warnings raised to errors, if asked. -/
def raised (warningsAsErrors : Bool) (l : CheckLevel) : CheckLevel :=
  if l = .warning ∧ warningsAsErrors then .error else l

end CheckLevel

structure FindingKind where
  key : Bytes
  message : Bytes
  defaultLevel : CheckLevel
  deriving DecidableEq, Repr

namespace FindingKind

def multipleModules : FindingKind :=
  ⟨ascii "JSC_MULTIPLE_MODULES_IN_FILE",
    ascii "There should only be a single goog.module() statement per file.", .error⟩

def moduleAndProvides : FindingKind :=
  ⟨ascii "JSC_MODULE_AND_PROVIDES",
    ascii "A file using goog.module() may not also use goog.provide() statements.", .error⟩

def referencesThis : FindingKind :=
  ⟨ascii "JSC_GOOG_MODULE_REFERENCES_THIS",
    ascii "The body of a goog.module cannot reference 'this'.", .error⟩

def usesThrow : FindingKind :=
  ⟨ascii "JSC_GOOG_MODULE_USES_THROW",
    ascii "The body of a goog.module cannot use 'throw'.", .error⟩

def globalName : FindingKind :=
  ⟨ascii "JSC_REFERENCE_TO_MODULE_GLOBAL_NAME",
    ascii ("References to the global name of a module are not allowed. " ++
      "Perhaps you meant exports?"), .error⟩

def requireNotAtTopLevel : FindingKind :=
  ⟨ascii "JSC_REQUIRE_NOT_AT_TOP_LEVEL",
    ascii "goog.require() must be called at file scope.", .error⟩

def oneRequirePerDeclaration : FindingKind :=
  ⟨ascii "JSC_ONE_REQUIRE_PER_DECLARATION",
    ascii "There may only be one goog.require() per var/let/const declaration.", .error⟩

def shorthandExports : FindingKind :=
  ⟨ascii "JSC_SHORTHAND_OBJLIT_NOT_ALLOWED",
    ascii "Shorthand object literal keys are not allowed in the exports object.", .error⟩

/-- The kinds that the rules report. -/
def known : List FindingKind :=
  [multipleModules, moduleAndProvides, referencesThis, usesThrow, globalName, requireNotAtTopLevel,
    oneRequirePerDeclaration, shorthandExports]

/-- The known kind with a key. -/
def find? (key : Bytes) : Option FindingKind := known.find? (·.key == key)

end FindingKind

/-- A kind at a place, before its level is settled. -/
structure Report where
  kind : FindingKind
  span : Span
  deriving DecidableEq, Repr

structure Finding where
  kind : FindingKind
  level : CheckLevel
  span : Span
  deriving DecidableEq, Repr

end ModuleLint
