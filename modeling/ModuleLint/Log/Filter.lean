import ModuleLint.Log.Level

/-!
Which records a log takes, by module.

A filter is written as entries with commas between them. `module=level` takes the records of a
module from a level on, a module alone takes them all, and `*=level` is about every module without
an entry of its own. Of two entries for the same the last one holds.
-/

namespace ModuleLint

structure LogFilter where
  /-- The level of modules without an entry. -/
  default : LogLevel
  /-- The levels of modules, one entry for each. -/
  modules : List (Bytes × LogLevel)
  deriving DecidableEq, Repr

namespace LogFilter

/-- A filter with one level for every module. -/
def uniform (level : LogLevel) : LogFilter := ⟨level, []⟩

def setModule (f : LogFilter) (module : Bytes) (level : LogLevel) : LogFilter :=
  { f with modules := (module, level) :: f.modules.filter (·.1 != module) }

/-- The filter with one more entry. An empty one says nothing. -/
def entry (f : LogFilter) (text : Bytes) : LogFilter :=
  match text.cut? Byte.equals with
  | some (module, level) =>
    if module = ascii "*" then { f with default := .ofText level }
    else f.setModule module (.ofText level)
  | none => if text.isEmpty then f else f.setModule text .trace

/-- The filter that a text describes. The level of modules without an entry stays as it is unless
the text gives one. -/
def parse (f : LogFilter) (spec : Bytes) : LogFilter :=
  (spec.splitOn Byte.comma).foldl entry (uniform f.default)

/-- The least level of a module whose records are taken. -/
def levelOf (f : LogFilter) (module : Bytes) : LogLevel :=
  (f.modules.lookup module).getD f.default

def admits (f : LogFilter) (level : LogLevel) (module : Bytes) : Bool :=
  decide (f.levelOf module ≤ level)

/-- The least level that some module has. -/
def minLevel (f : LogFilter) : LogLevel := (f.modules.map (·.2)).foldl LogLevel.min f.default

end LogFilter

end ModuleLint
