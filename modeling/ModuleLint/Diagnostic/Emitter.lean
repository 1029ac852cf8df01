import ModuleLint.Diagnostic.Json
import ModuleLint.Diagnostic.Text

/-!
Writing diagnostics.

An emitter knows the sources that lines are shown from and counts the errors and warnings it wrote.
-/

namespace ModuleLint

structure Emitter where
  format : DiagnosticFormat
  coloured : Bool
  /-- The sources, the latest first. -/
  sources : List Source
  errors : Nat
  warnings : Nat
  deriving DecidableEq, Repr

namespace Emitter

def start (format : DiagnosticFormat) : Emitter := ⟨format, false, [], 0, 0⟩

/-- Adds a source; it hides one of the same name. -/
def addSource (e : Emitter) (s : Source) : Emitter := { e with sources := s :: e.sources }

/-- The line that a span starts on, empty if it is not known. -/
def lineOf (e : Emitter) (span : Span) : Bytes :=
  match e.sources.find? (·.name == span.file) with
  | some source => source.line span.start.line.toNat
  | none => []

/-- The diagnostic as written. -/
def render (e : Emitter) (d : Diagnostic) : Bytes :=
  match e.format with
  | .json => d.toJson
  | .text =>
    d.toText (if e.coloured then Diagnostic.Palette.bright else Diagnostic.Palette.plain) e.lineOf

/-- The emitter after it wrote a diagnostic. -/
def counting (e : Emitter) (d : Diagnostic) : Emitter :=
  match d.severity with
  | .error => { e with errors := e.errors + 1 }
  | .warning => { e with warnings := e.warnings + 1 }
  | _ => e

/-- Writes a diagnostic. -/
def emit (e : Emitter) (d : Diagnostic) : Emitter × Bytes := (e.counting d, e.render d)

def withoutCounts (e : Emitter) : Emitter := { e with errors := 0, warnings := 0 }

end Emitter

end ModuleLint
