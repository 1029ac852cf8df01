import ModuleLint.Diagnostic.Basic
import ModuleLint.Suggestion

/-!
The configuration file.

Two tables are read, `[check]` and `[check.rules]`; every other table is passed over. A line is
`key = value`, the value in double quotes or not, and `#` starts a comment outside of quotes. A line
that says nothing valid is logged and passed over.
-/

namespace ModuleLint

structure Config where
  /-- The format of diagnostics, if the file chooses one. -/
  format : Option DiagnosticFormat
  warningsAsErrors : Bool
  /-- The extensions of the files that are checked, each with its dot. -/
  extensions : List Bytes
  /-- The names of directories that are not searched: a set, in the order of bytes. -/
  exclude : List Bytes
  /-- The levels chosen for keys, in order. -/
  levels : List (Bytes × CheckLevel)
  deriving DecidableEq, Repr

namespace Config

/-- The name of the configuration file. -/
def fileName : Bytes := ascii "modcheck.toml"

def standard : Config := ⟨none, false, [ascii ".js"], [ascii "node_modules"], []⟩

/-! ### Texts -/

def isBlank (b : UInt8) : Bool := [Byte.space, Byte.tab, Byte.carriageReturn].contains b

def trim (s : Bytes) : Bytes := Bytes.dropEndWhile isBlank (s.dropWhile isBlank)

/-- The part of a line before its comment. A double quote opens or closes a quoted part. -/
def withoutComment (inQuotes : Bool) : Bytes → Bytes
  | [] => []
  | b :: rest =>
    if b = Byte.doubleQuote then b :: withoutComment (!inQuotes) rest
    else if b = Byte.hash ∧ ¬ inQuotes then []
    else b :: withoutComment inQuotes rest

/-- A text without the double quotes around it, if there are two. -/
def unquoted (s : Bytes) : Bytes :=
  match s with
  | first :: rest =>
    if first = Byte.doubleQuote ∧ rest.getLast? = some Byte.doubleQuote then rest.dropLast else s
  | [] => []

/-- The items between commas, without blanks around them; empty ones are left out. -/
def items (s : Bytes) : List Bytes :=
  ((s.splitOn Byte.comma).map trim).filter (!·.isEmpty)

/-- A set of names with one more name, in the order of bytes. -/
def insertName (name : Bytes) : List Bytes → List Bytes
  | [] => [name]
  | other :: rest =>
    if name = other then other :: rest
    else if name < other then name :: other :: rest
    else other :: insertName name rest

/-- The set of some names. -/
def nameSet (names : List Bytes) : List Bytes :=
  names.foldl (fun set name => insertName name set) []

/-! ### Lines -/

/-- The table that a line belongs to. -/
inductive Table
  | check
  | rules
  | other
  deriving DecidableEq, Repr

def Table.ofHeader (line : Bytes) : Table :=
  if line = ascii "[check]" then .check
  else if line = ascii "[check.rules]" then .rules
  else .other

/-- What is wrong with a line. -/
inductive Problem
  | noValue
  | unknownFormat (value : Bytes)
  | unknownKey (key : Bytes)
  | invalidLevel (value key : Bytes)
  | unknownDiagnostic (key : Bytes)
  deriving DecidableEq, Repr

def Problem.message : Problem → Bytes
  | .noValue => ascii "expected 'key = value'"
  | .unknownFormat value => ascii "unknown format '" ++ value ++ ascii "'"
  | .unknownKey key => ascii "unknown key '" ++ key ++ ascii "'"
  | .invalidLevel value key => ascii "invalid level '" ++ value ++ ascii "' for " ++ key
  | .unknownDiagnostic key =>
    let suggestion := Suggestion.key key
    ascii "unknown diagnostic " ++ key ++
      if suggestion.isEmpty then [] else ascii " (did you mean " ++ suggestion ++ ascii "?)"

/-- The record of a problem in a line. -/
def Problem.record (line : Nat) (p : Problem) : LogRecord :=
  ⟨.warn, ascii "config",
    fileName ++ ascii ":" ++ Bytes.ofNat line ++ ascii ": " ++ p.message⟩

/-- What an entry of the table `[check]` changes. -/
def setting (c : Config) (key value : Bytes) : Config × Option Problem :=
  if key = ascii "format" then
    if value = ascii "json" then ({ c with format := some .json }, none)
    else if value = ascii "text" then ({ c with format := some .text }, none)
    else (c, some (.unknownFormat value))
  else if key = ascii "warnings-as-errors" then
    ({ c with warningsAsErrors := value == ascii "true" }, none)
  else if key = ascii "extensions" then ({ c with extensions := items value }, none)
  else if key = ascii "exclude" then ({ c with exclude := nameSet (items value) }, none)
  else (c, some (.unknownKey key))

/-- The level that a rule gives; `false` turns it off. -/
def ruleLevel? (value : Bytes) : Option CheckLevel :=
  CheckLevel.ofText? value <|> if value = ascii "false" then some .off else none

/-- What an entry of the table `[check.rules]` changes. A level for an unknown key is kept. -/
def rule (c : Config) (key value : Bytes) : Config × Option Problem :=
  match ruleLevel? value with
  | none => (c, some (.invalidLevel value key))
  | some level =>
    ({ c with levels := c.levels ++ [(key, level)] },
      if (FindingKind.find? key).isSome then none else some (.unknownDiagnostic key))

/-- What a line of one of the tables changes. -/
def entry (c : Config) (table : Table) (line : Bytes) : Config × Option Problem :=
  match line.cut? Byte.equals with
  | none => (c, some .noValue)
  | some (key, value) =>
    let key := trim key
    let value := unquoted (trim value)
    if table = .check then c.setting key value else c.rule key value

/-- A configuration being read: the table reached, the number of lines read and the problems
found. -/
structure Reading where
  config : Config
  table : Table
  line : Nat
  problems : List LogRecord
  deriving DecidableEq, Repr

/-- Reads one more line. -/
def Reading.next (r : Reading) (text : Bytes) : Reading :=
  let r := { r with line := r.line + 1 }
  let text := trim (withoutComment false text)
  if text.isEmpty then r
  else if text.head? = some Byte.openBracket then { r with table := .ofHeader text }
  else if r.table = .other then r
  else
    let (config, problem) := r.config.entry r.table text
    { r with config, problems := r.problems ++ (problem.map (·.record r.line)).toList }

/-- The configuration that a file describes, and what is logged of it. -/
def parse (text : Bytes) : Config × List LogRecord :=
  let r := (Bytes.lines text).foldl Reading.next ⟨standard, .other, 0, []⟩
  (r.config, r.problems)

end Config

end ModuleLint
