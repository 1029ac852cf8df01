import ModuleLint.Command.Discovery
import ModuleLint.Diagnostic.Emitter
import ModuleLint.Grammar.Script

/-!
Loading files.

A file becomes a script, or diagnostics that say why it does not.
-/

namespace ModuleLint

/-- What a step of a run shows: records for the log and texts for the user, in order. -/
inductive Output
  | record (r : LogRecord)
  | text (bytes : Bytes)
  deriving DecidableEq, Repr

/-- The scripts loaded so far, and the failures. -/
structure Session where
  emitter : Emitter
  scripts : List Node
  parseErrors : Nat
  ioErrors : Nat

namespace Session

def start (format : DiagnosticFormat) : Session := ⟨.start format, [], 0, 0⟩

/-- Writes a diagnostic. -/
def emit (s : Session) (d : Diagnostic) : Session × List Output :=
  let (emitter, bytes) := s.emitter.emit d
  ({ s with emitter }, [.text bytes])

/-- Writes diagnostics in order. -/
def emitAll (s : Session) : List Diagnostic → Session × List Output
  | [] => (s, [])
  | d :: rest =>
    let (s, out) := s.emit d
    let (s, more) := s.emitAll rest
    (s, out ++ more)

/-- An error that is about no text. -/
def plainError (code message : Bytes) : Diagnostic := .plain .error code message .none []

/-- Takes in the script of a source, or its errors. -/
def addSource (s : Session) (source : Source) : Session × List Output :=
  let s := { s with emitter := s.emitter.addSource source }
  match source.script with
  | .ok script => ({ s with scripts := s.scripts ++ [script] }, [])
  | .error failure =>
    let s := { s with parseErrors := s.parseErrors + failure.faults.length }
    let (s, out) := s.emitAll (failure.faults.map Diagnostic.ofSyntaxFault)
    (s, .record (failure.record source.name) :: out)

/-- Loads the file that a path leads to. -/
def load (files : FileLookup) (s : Session) (path : Bytes) : Session × List Output :=
  match files path with
  | .error _ =>
    { s with ioErrors := s.ioErrors + 1 }.emit
      (plainError (ascii "E002") (ascii "cannot open file: " ++ path))
  | .ok t => s.addSource ⟨path, t.content⟩

end Session

end ModuleLint
