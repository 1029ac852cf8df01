import ModuleLint.Check.Finding

/-!
The findings of a run.

A collector settles the level of each report when it is made: the level last chosen for its key,
else the kind's own, and warnings raised to errors if asked. What is off is dropped. Levels chosen
later change nothing that is recorded.
-/

namespace ModuleLint

structure Collector where
  /-- The levels chosen, the latest first. -/
  levels : List (Bytes × CheckLevel)
  warningsAsErrors : Bool
  findings : List Finding
  deriving DecidableEq, Repr

namespace Collector

def empty : Collector := ⟨[], false, []⟩

/-- Chooses the level of a key, whether or not a kind has it. -/
def setLevel (c : Collector) (key : Bytes) (level : CheckLevel) : Collector :=
  { c with levels := (key, level) :: c.levels }

/-- The level in force for a kind, before warnings are raised. -/
def levelFor (c : Collector) (kind : FindingKind) : CheckLevel :=
  (c.levels.lookup kind.key).getD kind.defaultLevel

/-- Records a report, unless its level is off. -/
def report (c : Collector) (r : Report) : Collector :=
  if c.levelFor r.kind = .off then c
  else
    let level := (c.levelFor r.kind).raised c.warningsAsErrors
    { c with findings := c.findings ++ [⟨r.kind, level, r.span⟩] }

/-- What is logged of a report that is dropped. -/
def suppressed? (c : Collector) (r : Report) : Option LogRecord :=
  if c.levelFor r.kind = .off then
    some ⟨.trace, ascii "check", ascii "suppressed " ++ r.kind.key⟩
  else none

def count (c : Collector) (level : CheckLevel) : Nat := c.findings.countP (·.level == level)

/-- The order of a sorted report: by file, then by the offset that findings start at. -/
def precedes (a b : Finding) : Bool :=
  decide (a.span.file < b.span.file) ||
    (a.span.file == b.span.file && decide (a.span.start.offset ≤ b.span.start.offset))

/-- Sorts the findings; those at one place keep their order. -/
def sort (c : Collector) : Collector := { c with findings := c.findings.mergeSort precedes }

def clear (c : Collector) : Collector := { c with findings := [] }

end Collector

end ModuleLint
