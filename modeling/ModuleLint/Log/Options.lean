import ModuleLint.Log.Record

/-!
How a log is set up, from the arguments of a program and one variable of its environment.

The arguments are read one after the other, and a later one of a kind overrules those before it.
`-v`, repeated or not, asks for more records, unless a level is given; the variable counts only
where the arguments give neither level nor filter.
-/

namespace ModuleLint

structure LogOptions where
  level : LogLevel
  format : LogFormat
  /-- A filter, empty if there is none. -/
  filter : Bytes
  /-- The path of a log file, empty if there is none. -/
  file : Bytes
  console : Bool
  colours : Bool
  deriving DecidableEq, Repr

namespace LogOptions

def standard : LogOptions := ⟨.warn, .text, [], [], true, true⟩

/-- The rest of a text after `start`, if it starts so. -/
def after? (start text : Bytes) : Option Bytes :=
  if start.isPrefixOf text then some (text.drop start.length) else none

/-- The number of letters in `-v`, `-vv` and so on, zero for any other argument. -/
def verbosityCount : Bytes → Nat
  | dash :: letter :: letters =>
    if dash ≠ byte '-' ∨ letter = byte '-' then 0
    else if (letter :: letters).all (· == byte 'v') then letters.length + 1
    else 0
  | _ => 0

/-- Whether an argument is about the log alone. -/
def isLogOption (arg : Bytes) : Bool :=
  (ascii "--log-level=").isPrefixOf arg || (ascii "--log-filter=").isPrefixOf arg ||
    (ascii "--log-file=").isPrefixOf arg || (ascii "--log-format=").isPrefixOf arg ||
    arg == ascii "--verbose" || 0 < verbosityCount arg

/-- Whether an argument asks for errors only. -/
def isQuiet (arg : Bytes) : Bool := arg == ascii "-q" || arg == ascii "--quiet"

/-- What was read of the arguments so far. -/
structure Reading where
  options : LogOptions
  hasLevel : Bool
  hasFilter : Bool
  /-- The greatest verbosity asked for. -/
  verbosity : Nat
  deriving DecidableEq, Repr

namespace Reading

def start : Reading := ⟨standard, false, false, 0⟩

def setLevel (r : Reading) (level : LogLevel) : Reading :=
  { r with options := { r.options with level }, hasLevel := true }

/-- Reads one more argument. -/
def next (r : Reading) (arg : Bytes) : Reading :=
  if let some name := after? (ascii "--log-level=") arg then r.setLevel (.ofText name)
  else if let some spec := after? (ascii "--log-filter=") arg then
    { r with options := { r.options with filter := spec }, hasFilter := true }
  else if let some path := after? (ascii "--log-file=") arg then
    { r with options := { r.options with file := path } }
  else if let some name := after? (ascii "--log-format=") arg then
    let format := if name = ascii "json" ∨ name = ascii "JSON" then .json else .text
    { r with options := { r.options with format } }
  else if isQuiet arg then r.setLevel .error
  else if arg = ascii "--verbose" then { r with verbosity := max r.verbosity 1 }
  else { r with verbosity := max r.verbosity (verbosityCount arg) }

/-- The level goes by the verbosity, unless one was given. -/
def applyVerbosity (r : Reading) : Reading :=
  if !r.hasLevel ∧ 0 < r.verbosity then
    if 3 ≤ r.verbosity then r.setLevel .trace
    else if r.verbosity = 2 then r.setLevel .debug
    else r.setLevel .info
  else r

end Reading

/-- The options with what the variable says: a filter if it looks like one, else a level. -/
def withVariable (o : LogOptions) (text : Bytes) : LogOptions :=
  if text.isEmpty then o
  else if text.contains Byte.equals ∨ text.contains Byte.comma then
    { o with filter := text }
  else { o with level := .ofText text }

/-- The options that arguments and the variable give. -/
def read (args : List Bytes) (setting : Option Bytes) : LogOptions :=
  let r := (args.foldl Reading.next .start).applyVerbosity
  if !r.hasLevel ∧ !r.hasFilter then r.options.withVariable (setting.getD [])
  else r.options

end LogOptions

end ModuleLint
