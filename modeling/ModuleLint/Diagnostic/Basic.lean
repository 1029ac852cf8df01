import ModuleLint.Check.Finding
import ModuleLint.Grammar.Error

/-!
Diagnostics: what is shown to the user.
-/

namespace ModuleLint

inductive Severity
  | error
  | warning
  | note
  | help
  deriving DecidableEq, Repr

def Severity.text : Severity → Bytes
  | .error => ascii "error"
  | .warning => ascii "warning"
  | .note => ascii "note"
  | .help => ascii "help"

structure Diagnostic where
  severity : Severity
  /-- May be empty. -/
  code : Bytes
  message : Bytes
  /-- What it is about; a span without a file is about no text. -/
  span : Span
  notes : List Bytes
  help : List Bytes
  deriving DecidableEq, Repr

namespace Diagnostic

/-- A diagnostic with notes at most. -/
def plain (severity : Severity) (code message : Bytes) (span : Span) (notes : List Bytes) :
    Diagnostic :=
  ⟨severity, code, message, span, notes, []⟩

/-- A finding at its recorded level. -/
def ofFinding (f : Finding) : Diagnostic :=
  plain (if f.level = .error then .error else .warning) f.kind.key f.kind.message f.span []

def ofSyntaxFault (f : SyntaxFault) : Diagnostic :=
  plain .error f.error.code f.error.message f.span []

end Diagnostic

/-- How diagnostics are written. -/
inductive DiagnosticFormat
  | text
  | json
  deriving DecidableEq, Repr

end ModuleLint
