import ModuleLint.Command.Config
import ModuleLint.Log.Options

/-!
The arguments of the command.

They are read in order, on top of the configuration; the first that asks for help or the version, or
is wrong, ends the reading. Arguments about the log are passed over.
-/

namespace ModuleLint

structure Settings where
  format : DiagnosticFormat
  warningsAsErrors : Bool
  /-- Only errors are shown, and no summary. -/
  quiet : Bool
  /-- The syntax trees are printed. -/
  dumpTrees : Bool
  /-- The levels chosen for keys, in order. -/
  levels : List (Bytes × CheckLevel)
  paths : List Bytes
  deriving DecidableEq, Repr

/-- Why a command ends without checking anything. -/
inductive Stop
  | help
  | version
  | unknownFormat (format : Bytes)
  /-- A key that no finding has, in an argument, with the format that diagnostics have by then. -/
  | unknownKey (key argument : Bytes) (format : DiagnosticFormat)
  /-- An option like those for levels. -/
  | unknownLevelOption (argument : Bytes)
  | unknownOption (argument : Bytes)
  deriving DecidableEq, Repr

namespace Settings

/-- The settings that a configuration gives. -/
def ofConfig (c : Config) : Settings :=
  ⟨c.format.getD .text, c.warningsAsErrors, false, false, c.levels, []⟩

/-- The options that choose a level for a key. -/
def levelOptions : List (Bytes × CheckLevel) :=
  [(ascii "--jscomp_off=", .off), (ascii "--jscomp_warning=", .warning),
    (ascii "--jscomp_error=", .error)]

/-- The key and level in an option that chooses one. -/
def levelOption? (arg : Bytes) : Option (Bytes × CheckLevel) :=
  levelOptions.findSome? fun (start, level) => (LogOptions.after? start arg).map (·, level)

/-- Reads an option for the format. -/
def readFormat (s : Settings) (format : Bytes) : Except Stop Settings :=
  if format = ascii "json" then .ok { s with format := .json }
  else if format = ascii "text" then .ok { s with format := .text }
  else .error (.unknownFormat format)

/-- Reads an option for a level. -/
def readLevel (s : Settings) (arg : Bytes) : Except Stop Settings :=
  match levelOption? arg with
  | none => .error (.unknownLevelOption arg)
  | some (key, level) =>
    if (FindingKind.find? key).isNone then .error (.unknownKey key arg s.format)
    else .ok { s with levels := s.levels ++ [(key, level)] }

/-- Reads one more argument. -/
def next (s : Settings) (arg : Bytes) : Except Stop Settings :=
  if arg = ascii "--help" ∨ arg = ascii "-h" then .error .help
  else if arg = ascii "--version" ∨ arg = ascii "-V" then .error .version
  else if LogOptions.isQuiet arg then .ok { s with quiet := true }
  else if arg = ascii "--Werror" then .ok { s with warningsAsErrors := true }
  else if arg = ascii "--dump-ast" then .ok { s with dumpTrees := true }
  else
    match LogOptions.after? (ascii "--format=") arg with
    | some format => s.readFormat format
    | none =>
      if (ascii "--jscomp_").isPrefixOf arg then s.readLevel arg
      else if LogOptions.isLogOption arg then .ok s
      else if arg.head? = some (byte '-') then .error (.unknownOption arg)
      else .ok { s with paths := s.paths ++ [arg] }

/-- The settings that arguments give on top of a configuration. Without a path the current directory
is checked. -/
def read (c : Config) (args : List Bytes) : Except Stop Settings := do
  let s ← args.foldlM next (ofConfig c)
  return if s.paths.isEmpty then { s with paths := [ascii "."] } else s

end Settings

end ModuleLint
