import ModuleLint.Log.Filter
import ModuleLint.Log.Options

/-!
A logger: a filter and the sinks that records go to.

The least level of the filter is kept beside it, so that most records are refused by one comparison.
-/

namespace ModuleLint

/-- Where records go. -/
inductive LogSink
  | console (format : LogFormat)
  | file (format : LogFormat)
  /-- Keeps the records. -/
  | capture
  /-- Drops the records. -/
  | null
  deriving DecidableEq, Repr

structure Logger where
  /-- No record below this level is taken. -/
  level : LogLevel
  filter : LogFilter
  sinks : List LogSink
  deriving DecidableEq, Repr

/-- What the sinks of a logger made of a record. -/
structure LogDelivery where
  console : Bytes
  file : Bytes
  captured : List LogRecord
  deriving DecidableEq, Repr

namespace Logger

/-- A logger with one level for every module and no sinks. -/
def uniform (level : LogLevel) : Logger := ⟨level, .uniform level, []⟩

def setLevel (l : Logger) (level : LogLevel) : Logger :=
  { l with level, filter := { l.filter with default := level } }

def setFilter (l : Logger) (spec : Bytes) : Logger :=
  let filter := l.filter.parse spec
  { l with level := filter.minLevel, filter }

def addSink (l : Logger) (sink : LogSink) : Logger := { l with sinks := l.sinks ++ [sink] }

def clearSinks (l : Logger) : Logger := { l with sinks := [] }

/-- Whether a record of a level and module is taken. -/
def admits (l : Logger) (level : LogLevel) (module : Bytes) : Bool :=
  decide (l.level ≤ level) && l.filter.admits level module

/-- The logger that options describe, with a file sink if the log file could be opened. -/
def ofOptions (o : LogOptions) (hasFile : Bool) : Logger :=
  let l := uniform o.level
  let l := if o.filter.isEmpty then l else l.setFilter o.filter
  let l := if o.console then l.addSink (.console o.format) else l
  if hasFile then l.addSink (.file o.format) else l

/-- What is told of a log file that could not be opened. -/
def fileWarning (path : Bytes) : Bytes :=
  ascii "warning: could not open log file: " ++ path ++ ascii "\n"

/-- Gives a record to every sink, whatever the filter says. -/
def deliver (l : Logger) (ms : Int) (r : LogRecord) : LogDelivery where
  console := l.sinks.flatMap fun | .console format => r.write format ms | _ => []
  file := l.sinks.flatMap fun | .file format => r.write format ms | _ => []
  captured := l.sinks.flatMap fun | .capture => [r] | _ => []

/-- Gives a record to every sink if it is taken. -/
def log (l : Logger) (ms : Int) (r : LogRecord) : LogDelivery :=
  if l.admits r.level r.module then l.deliver ms r else ⟨[], [], []⟩

end Logger

end ModuleLint
