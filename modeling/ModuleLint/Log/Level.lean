import ModuleLint.Bytes

/-!
Levels of log records.

A level is its rank. Six named levels rise from `trace` to `fatal`; `off` stands above them, so that
nothing reaches it. Other ranks have no name.
-/

namespace ModuleLint

structure LogLevel where
  rank : Int
  deriving DecidableEq, Repr, Inhabited

namespace LogLevel

def trace : LogLevel := ⟨0⟩
def debug : LogLevel := ⟨1⟩
def info : LogLevel := ⟨2⟩
def warn : LogLevel := ⟨3⟩
def error : LogLevel := ⟨4⟩
def fatal : LogLevel := ⟨5⟩
def off : LogLevel := ⟨6⟩

instance : LE LogLevel := ⟨fun a b => a.rank ≤ b.rank⟩

instance (a b : LogLevel) : Decidable (a ≤ b) := inferInstanceAs (Decidable (a.rank ≤ b.rank))

/-- The lower of two levels. -/
def min (a b : LogLevel) : LogLevel := if a ≤ b then a else b

/-- The named levels with their names and the colours they are shown in. -/
def named : List (LogLevel × Bytes × Bytes) :=
  [(trace, ascii "TRACE", ascii "\x1b[90m"), (debug, ascii "DEBUG", ascii "\x1b[36m"),
    (info, ascii "INFO", ascii "\x1b[32m"), (warn, ascii "WARN", ascii "\x1b[33m"),
    (error, ascii "ERROR", ascii "\x1b[31m"), (fatal, ascii "FATAL", ascii "\x1b[1;31m"),
    (off, ascii "OFF", [])]

def name (l : LogLevel) : Bytes := ((named.lookup l).map (·.1)).getD (ascii "???")

def colour (l : LogLevel) : Bytes := ((named.lookup l).map (·.2)).getD []

/-- The level that a text names, in small letters or in capitals; `info` if it names none. -/
def ofText (text : Bytes) : LogLevel :=
  if text = ascii "warning" then warn
  else
    match named.find? fun (_, name, _) => text == name || text == name.toLower with
    | some (level, _, _) => level
    | none => info

end LogLevel

end ModuleLint
