import ModuleLint.Check.Collector
import ModuleLint.Check.Rules

/-!
Notices as findings and log records.

Each notice is logged; a report is also given to the collector, which may log that it dropped it.
-/

namespace ModuleLint

namespace CheckNotice

/-- A record of the module `check`. -/
def checkRecord (level : LogLevel) (message : Bytes) : LogRecord := ⟨level, ascii "check", message⟩

/-- What is logged of a notice. -/
def record? : CheckNotice → Option LogRecord
  | .started scripts =>
    some (checkRecord .debug
      (ascii "module checks over " ++ Bytes.ofNat scripts ++ ascii " script(s)"))
  | .rechecking script => some (checkRecord .debug (ascii "re-checking " ++ script))
  | .classified script isModule =>
    some (checkRecord .trace
      (script ++ ascii (if isModule then " is" else " is not") ++ ascii " a goog.module"))
  | .named module => some (checkRecord .debug (ascii "module name '" ++ module ++ ascii "'"))
  | .found r =>
    some (checkRecord .debug
      (r.kind.key ++ ascii " at " ++ r.span.file ++ [byte ':'] ++
        Bytes.ofNat r.span.start.line.toNat ++ [byte ':'] ++
        Bytes.ofNat r.span.start.column.toNat))
  | .importsChecked => none

end CheckNotice

/-- The pass over imports: how often it ran, and the findings there were when it last did. -/
structure ImportPass where
  runs : Nat
  seen : Nat
  deriving DecidableEq, Repr

/-- A collector with what is beside it: the pass over imports and the log. -/
structure CheckRun where
  collector : Collector
  imports : ImportPass
  log : List LogRecord
  deriving DecidableEq, Repr

namespace CheckRun

def start (collector : Collector) : CheckRun := ⟨collector, ⟨0, 0⟩, []⟩

/-- Takes in a notice. -/
def notice (r : CheckRun) (n : CheckNotice) : CheckRun :=
  let log := r.log ++ n.record?.toList
  match n with
  | .found report =>
    { r with
      collector := r.collector.report report
      log := log ++ (r.collector.suppressed? report).toList }
  | .importsChecked =>
    { r with imports := ⟨r.imports.runs + 1, r.collector.findings.length⟩, log }
  | _ => { r with log }

/-- Takes in notices in order. -/
def notices (r : CheckRun) (l : List CheckNotice) : CheckRun := l.foldl notice r

end CheckRun

end ModuleLint
