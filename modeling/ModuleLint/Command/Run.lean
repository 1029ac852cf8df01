import ModuleLint.Check.Run
import ModuleLint.Command.Session
import ModuleLint.Command.Settings
import ModuleLint.Log.Logger

/-!
The command: it finds, loads and checks files and shows what was found.

The exit status is 0 if all is well, 1 if there are errors and 2 if the arguments are wrong.
Everything that is shown on the way goes through one list of outputs, so that log records and
diagnostics keep their order.
-/

namespace ModuleLint

namespace Command

def version : Bytes := ascii "modcheck 0.3.0\n"

/-- The text of `--help`. -/
def help : Bytes :=
  ascii ("Usage: modcheck [options] [paths...]\n\n" ++
    "Check goog.module files for structural problems.\n\n" ++
    "Options:\n" ++
    "  --format=<text|json>    Diagnostic output format\n" ++
    "  --jscomp_off=<KEY>      Disable a diagnostic\n" ++
    "  --jscomp_warning=<KEY>  Report a diagnostic as a warning\n" ++
    "  --jscomp_error=<KEY>    Report a diagnostic as an error\n" ++
    "  --Werror                Treat warnings as errors\n" ++
    "  --dump-ast              Print the syntax tree of each file\n" ++
    "  --quiet, -q             Only show errors (no warnings)\n" ++
    "  --verbose, -v           Show progress (-vv, -vvv for more)\n" ++
    "  --log-level=<level>     trace, debug, info, warn, error, off\n" ++
    "  --log-filter=<spec>     Per-module levels, e.g. check=debug\n" ++
    "  --log-file=<path>       Also write log records to a file\n" ++
    "  --log-format=<fmt>      text or json\n" ++
    "  --help, -h              Show this help\n" ++
    "  --version, -V           Show version\n\n" ++
    "If no paths are specified, checks the current directory.\n\n" ++
    "Configuration:\n" ++
    "  Add [check] and [check.rules] sections to ") ++ Config.fileName ++
  ascii " to customize settings.\n\nDiagnostics:\n" ++
  Suggestion.knownKeys.flatMap (fun key => ascii "  " ++ key ++ ascii "\n") ++
  ascii "\nExit status: 0 if clean, 1 if errors were found, 2 on usage errors.\n"

/-- How a command ended. -/
structure Result where
  status : Nat
  stdout : Bytes
  /-- What was shown and logged, in order. -/
  outputs : List Output
  deriving DecidableEq, Repr

/-! ### Ends without a check -/

/-- The diagnostic for a key that no finding has. -/
def unknownKey (key argument : Bytes) : Diagnostic :=
  let suggestion := Suggestion.key key
  let message := ascii "unknown diagnostic '" ++ key ++ ascii "' in " ++ argument
  { Session.plainError (ascii "E003") message with
    help := if suggestion.isEmpty then [] else [ascii "did you mean " ++ suggestion ++ ascii "?"] }

/-- A complaint about an argument. -/
def complaint (what argument : Bytes) : Bytes :=
  ascii "modcheck: unknown " ++ what ++ ascii " '" ++ argument ++ ascii "'\n"

def stopped : Stop → Result
  | .help => ⟨0, [], [.text help]⟩
  | .version => ⟨0, version, []⟩
  | .unknownFormat format => ⟨2, [], [.text (complaint (ascii "format") format)]⟩
  | .unknownKey key argument format =>
    ⟨2, [], [.text ((Emitter.start format).render (unknownKey key argument))]⟩
  | .unknownLevelOption argument => ⟨2, [], [.text (complaint (ascii "option") argument)]⟩
  | .unknownOption argument =>
    ⟨2, [], [.text (complaint (ascii "option") argument ++
      ascii "Run 'modcheck --help' for usage.\n")]⟩

/-! ### The check -/

/-- The files chosen so far, and the paths that lead to none. -/
structure Selection where
  session : Session
  files : List Bytes
  missing : Nat

/-- Chooses the files of a path: those below a directory, or the file itself. -/
def select (c : Config) (lookup : FileLookup) (s : Selection) (path : Bytes) :
    Selection × List Output :=
  match lookup path with
  | .ok (.directory _) =>
    let (found, log) := c.discover lookup path
    ({ s with files := s.files ++ found }, log.map .record)
  | .ok (.file _) => ({ s with files := s.files ++ [path] }, [])
  | .error _ =>
    let (session, out) := s.session.emit
      (Session.plainError (ascii "E001") (ascii "file not found: " ++ path))
    ({ s with session, missing := s.missing + 1 }, out)

/-- A record of the module `cli`. -/
def cliRecord (level : LogLevel) (message : Bytes) : Output := .record ⟨level, ascii "cli", message⟩

/-- Loads a chosen file. -/
def loadFile (lookup : FileLookup) (s : Session) (path : Bytes) : Session × List Output :=
  let (s, out) := s.load lookup path
  (s, cliRecord .info (ascii "Checking: " ++ path) :: out)

/-- Goes through a list with a state, gathering outputs. -/
def gather {σ α : Type} (f : σ → α → σ × List Output) : σ → List α → σ × List Output
  | s, [] => (s, [])
  | s, a :: rest =>
    let (s, out) := f s a
    let (s, more) := gather f s rest
    (s, out ++ more)

/-- A collector with the levels that settings choose. -/
def collector (s : Settings) : Collector :=
  s.levels.foldl (fun c (key, level) => c.setLevel key level)
    { Collector.empty with warningsAsErrors := s.warningsAsErrors }

/-- Checks the scripts of a session; the findings are sorted. -/
def check (s : Settings) (session : Session) : CheckRun :=
  let root := Spot.root (program session.scripts)
  let state := CheckState.start.checkProgram Node.isModuleFile false root
  let run := (CheckRun.start (collector s)).notices state.notices
  { run with collector := run.collector.sort }

/-- The findings that are shown. -/
def shown (s : Settings) (findings : List Finding) : List Finding :=
  if s.quiet then findings.filter (·.level == .error) else findings

/-- The line that sums up a check. -/
def summary (scripts errors warnings failures : Nat) : Bytes :=
  ascii "Checked " ++ Bytes.ofNat scripts ++ ascii " file(s): " ++ Bytes.ofNat errors ++
    ascii " error(s), " ++ Bytes.ofNat warnings ++ ascii " warning(s)" ++
    (if failures > 0 then ascii ", " ++ Bytes.ofNat failures ++ ascii " file error(s)" else []) ++
    ascii "\n"

/-- What is logged at the end of a check. -/
def tally (errors warnings failures : Nat) : Output :=
  cliRecord .debug
    (ascii "errors=" ++ Bytes.ofNat errors ++ ascii " warnings=" ++ Bytes.ofNat warnings ++
      ascii " failures=" ++ Bytes.ofNat failures)

/-- The trees of the scripts, each on a line. -/
def dump (scripts : List Node) : Bytes := scripts.flatMap fun n => n.sexpr ++ ascii "\n"

/-- Checks the chosen files. -/
def checkSelection (s : Settings) (lookup : FileLookup) (chosen : Selection) : Result :=
  let (session, loading) := gather (loadFile lookup) chosen.session chosen.files
  let run := check s session
  let (_, findings) := session.emitAll
    ((shown s run.collector.findings).map Diagnostic.ofFinding)
  let errors := run.collector.count .error
  let warnings := run.collector.count .warning
  let failures := chosen.missing + session.ioErrors + session.parseErrors
  let summed :=
    if s.format = .text ∧ ¬ s.quiet then
      [Output.text (summary session.scripts.length errors warnings failures)]
    else []
  { status := if errors > 0 ∨ failures > 0 then 1 else 0
    stdout := if s.dumpTrees then dump session.scripts else []
    outputs := loading ++ run.log.map .record ++ findings ++ summed ++
      [tally errors warnings failures] }

/-- Chooses and checks files. -/
def checkPaths (c : Config) (s : Settings) (lookup : FileLookup) : Result :=
  let (chosen, selecting) := gather (select c lookup) ⟨.start s.format, [], 0⟩ s.paths
  if chosen.files.isEmpty ∧ chosen.missing = 0 then
    ⟨0, [], selecting ++ [cliRecord .info (ascii "No source files found")]⟩
  else
    let result := checkSelection s lookup chosen
    { result with outputs := selecting ++ result.outputs }

/-- The configuration in a directory, and what is logged of it. -/
def config (directory : Bytes) (lookup : FileLookup) : Config × List LogRecord :=
  match lookup Config.fileName with
  | .error _ => (.standard, [])
  | .ok t =>
    let (c, problems) := Config.parse t.content
    let message := ascii "Loading " ++ joinPath directory Config.fileName
    (c, ⟨.debug, ascii "config", message⟩ :: problems)

/-- Runs the command in a directory. -/
def run (directory : Bytes) (lookup : FileLookup) (args : List Bytes) : Result :=
  let (c, log) := config directory lookup
  let result :=
    match Settings.read c args with
    | .error stop => stopped stop
    | .ok s => checkPaths c s lookup
  { result with outputs := log.map .record ++ result.outputs }

/-! ### What is written -/

/-- What a command wrote. -/
structure Transcript where
  status : Nat
  stdout : Bytes
  stderr : Bytes
  /-- What is appended to the log file. -/
  logged : Bytes
  deriving DecidableEq, Repr

/-- An output as written to standard error and to the log file, at a time. -/
def written (logger : Logger) (ms : Int) : Output → Bytes × Bytes
  | .text bytes => (bytes, [])
  | .record r =>
    let d := logger.log ms r
    (d.console, d.file)

/-- What the command writes. A log file is asked for by a path; `hasLog` tells whether it could be
opened. -/
def transcript (o : LogOptions) (hasLog : Bool) (ms : Int) (r : Result) : Transcript :=
  let logger := Logger.ofOptions o hasLog
  let out := r.outputs.map (written logger ms)
  let warning := if o.file.isEmpty ∨ hasLog then [] else Logger.fileWarning o.file
  ⟨r.status, r.stdout, warning ++ out.flatMap (·.1), out.flatMap (·.2)⟩

/-- Runs the command in a tree of files. The log file is there from the start, and records are added
to it at the end. -/
def runIn (directory : Bytes) (files : FileTree) (args : List Bytes) (setting : Option Bytes)
    (ms : Int) : Transcript × FileTree :=
  let o := LogOptions.read args setting
  let opened := if o.file.isEmpty then none else files.write o.file id
  let files := opened.getD files
  let t := transcript o opened.isSome ms (run directory files.lookup args)
  (t, (files.write o.file (· ++ t.logged)).getD files)

end Command

end ModuleLint
