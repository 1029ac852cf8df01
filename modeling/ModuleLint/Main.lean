import ModuleLint.Command.Run
import Std.Time.DateTime.Timestamp

/-!
The program `modcheck`.

It reads what its arguments lead to, runs the command on it and writes what the command says.
-/

namespace ModuleLint.Program

def utf8 (s : String) : Bytes := s.toUTF8.toList

/-- Text as a path of the system. -/
def systemPath (path : Bytes) : String := (String.fromUTF8? ⟨path.toArray⟩).getD ""

/-- The tree that a path leads to. Excluded directories are not entered, and below a directory only
files that are checked are read. -/
partial def readTree (c : Config) (path : String) : IO FileTree := do
  let place := (← IO.currentDir) / path
  match (← place.metadata).type with
  | .dir =>
    let entries ← (← place.readDir).toList.filterMapM fun entry => do
      try
        let name := utf8 entry.fileName
        match (← entry.path.metadata).type with
        | .dir =>
          if c.exclude.contains name then return some (name, FileTree.directory [])
          else return some (name, ← readTree c entry.path.toString)
        | _ =>
          if c.checks name then return some (name, ← readTree c entry.path.toString)
          else return none
      catch _ => return none
    return .directory entries
  | _ => return .file (← IO.FS.readBinFile place).toList

/-- The trees that paths lead to, without the paths that lead nowhere. -/
def readTrees (c : Config) (paths : List Bytes) : IO (List (Bytes × FileTree)) :=
  paths.filterMapM fun path => do
    try
      return some (path, ← readTree c (systemPath path))
    catch _ => return none

/-- The log file that options ask for, if it can be opened. -/
def openLog (o : LogOptions) : IO (Option IO.FS.Handle) := do
  if o.file.isEmpty then return none
  try
    return some (← IO.FS.Handle.mk (systemPath o.file) .append)
  catch _ => return none

/-- The paths that arguments name, on top of a configuration. -/
def paths (c : Config) (args : List Bytes) : List Bytes :=
  match Settings.read c args with
  | .error _ => []
  | .ok s => s.paths

def run (args : List Bytes) : IO Command.Transcript := do
  let o := LogOptions.read args ((← IO.getEnv "MODCHECK_LOG").map utf8)
  let log ← openLog o
  let directory := utf8 (← IO.currentDir).toString
  let start ← readTrees .standard [Config.fileName]
  let (c, _) := Command.config directory (lookupBelow start)
  let trees ← readTrees c (paths c args)
  let result := Command.run directory (lookupBelow (start ++ trees)) args
  let now := (← Std.Time.Timestamp.now).toMillisecondsSinceUnixEpoch.val
  let t := Command.transcript o log.isSome now result
  match log with
  | some file => file.write ⟨t.logged.toArray⟩
  | none => pure ()
  return t

end ModuleLint.Program

def main (args : List String) : IO UInt32 := do
  let t ← ModuleLint.Program.run (args.map ModuleLint.Program.utf8)
  (← IO.getStdout).write ⟨t.stdout.toArray⟩
  (← IO.getStderr).write ⟨t.stderr.toArray⟩
  return t.status.toUInt32
