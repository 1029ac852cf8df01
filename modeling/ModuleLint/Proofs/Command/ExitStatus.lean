import ModuleLint.Proofs.Command.Counts
import ModuleLint.Proofs.Log.Arguments

/-!
The exit status of a command.

A command that checks files fails exactly if it wrote an error. A file that adds no script leaves an
error, so no file is lost without a trace, and what is chosen to be shown has no say.
-/

namespace ModuleLint

namespace Command

open Session

variable (c : Config) (s : Settings) (lookup : FileLookup)

section Run

variable {directory : Bytes} {lookup : FileLookup} {args : List Bytes}

lemma run_of_stop {stop : Stop}
    (reads : Settings.read (config directory lookup).1 args = .error stop) :
    run directory lookup args =
      { stopped stop with
        outputs := (config directory lookup).2.map .record ++ (stopped stop).outputs } := by
  unfold run
  revert reads
  cases config directory lookup with
  | mk c log =>
    intro reads
    simp only at reads ⊢
    rw [reads]

lemma run_of_settings {s : Settings}
    (reads : Settings.read (config directory lookup).1 args = .ok s) :
    run directory lookup args =
      { checkPaths (config directory lookup).1 s lookup with
        outputs := (config directory lookup).2.map .record ++
          (checkPaths (config directory lookup).1 s lookup).outputs } := by
  unfold run
  revert reads
  cases config directory lookup with
  | mk c log =>
    intro reads
    simp only at reads ⊢
    rw [reads]

end Run

lemma status_run (directory : Bytes) (lookup : FileLookup) {args args' : List Bytes}
    (h : args'.filter (· ∉ displayArguments) = args.filter (· ∉ displayArguments)) :
    (run directory lookup args').status = (run directory lookup args).status := by
  have same := Settings.read_display (config directory lookup).1 h
  have status (args : List Bytes) : (run directory lookup args).status =
      match Settings.coreOf (Settings.read (config directory lookup).1 args) with
      | .error status => status
      | .ok s => if 0 < errorCount (config directory lookup).1 s lookup then 1 else 0 := by
    cases hr : Settings.read (config directory lookup).1 args with
    | error stop =>
      rw [run_of_stop hr]
      rfl
    | ok s =>
      rw [run_of_settings hr]
      have core := @errorCount_congr (config directory lookup).1 lookup s s.core rfl
      exact (status_checkPaths _ s lookup).trans (by rw [core]; rfl)
  rw [status, status, same]

/-- Without an option for it there is no log file. -/
lemma no_logFile {args : List Bytes} (h : ∀ arg ∈ args, ¬ (ascii "--log-file=").isPrefixOf arg)
    (setting : Option Bytes) : (LogOptions.read args setting).file = [] := by
  obtain ⟨before, arg, after, rfl, given, -⟩ | ⟨-, none⟩ :=
    (LogOptions.describes_read args setting).file
  · refine absurd ?_ (h arg (by simp))
    rw [given]
    exact List.isPrefixOf_iff_prefix.mpr (List.prefix_append _ _)
  · exact none

/-- A run without a log file only writes what it shows. -/
lemma runIn_eq {directory : Bytes} {files : FileTree} {args : List Bytes}
    (h : ∀ arg ∈ args, ¬ (ascii "--log-file=").isPrefixOf arg) (setting : Option Bytes) (ms : Int) :
    (runIn directory files args setting ms).1 =
      transcript (LogOptions.read args setting) false ms (run directory files.lookup args) := by
  unfold runIn
  dsimp only
  rw [no_logFile h setting]
  rfl

/-- A text among the outputs is written as it is. -/
lemma text_written {o : LogOptions} {hasLog : Bool} {ms : Int} {r : Result} {text : Bytes}
    (h : .text text ∈ r.outputs) : text <:+: (transcript o hasLog ms r).stderr := by
  let logger := Logger.ofOptions o hasLog
  obtain ⟨before, after, split⟩ :=
    List.append_of_mem (List.mem_map_of_mem (f := written logger ms) h)
  have here : text <:+: (r.outputs.map (written logger ms)).flatMap (·.1) := by
    rw [split, List.flatMap_append, List.flatMap_cons]
    exact ⟨before.flatMap (·.1), after.flatMap (·.1), List.append_assoc _ _ _⟩
  exact here.trans (List.suffix_append _ _).isInfix

lemma outputs_run {directory : Bytes} {lookup : FileLookup} {args : List Bytes}
    (reads : Settings.read (config directory lookup).1 args = .ok s) {o : Output}
    (h : o ∈ (checkPaths (config directory lookup).1 s lookup).outputs) :
    o ∈ (run directory lookup args).outputs := by
  rw [run_of_settings reads]
  exact List.mem_append_right _ h

/-- What is written while files are loaded, is written by the command. -/
lemma outputs_loading {o : Output} (h : o ∈ (gather (loadFile lookup)
      (selection c s lookup).session (selection c s lookup).files).2) :
    o ∈ (checkPaths c s lookup).outputs := by
  have some : ¬ NothingChosen c s lookup := by
    rintro ⟨noFiles, -⟩
    rw [List.isEmpty_iff.mp noFiles] at h
    cases h
  rw [checkPaths_of_chosen c s lookup some]
  refine List.mem_append_right _ ?_
  unfold checkSelection
  simp only [List.append_assoc]
  exact List.mem_append_left _ h

/-- **The exit status says whether errors were written, and no file is lost.** In a run that checks
files, and keeps no log file, each file adds one script or leaves errors, which are written. All
errors that are written are counted: those found in scripts, missing paths, and what went wrong with
files. The status is 1 if there are any and 0 if there are none, and it does not depend on arguments
about what is shown. -/
theorem exit_status {directory : Bytes} {files : FileTree} {args : List Bytes}
    (noLogFile : ∀ arg ∈ args, ¬ (ascii "--log-file=").isPrefixOf arg) {s : Settings}
    (reads : Settings.read (config directory files.lookup).1 args = .ok s)
    (setting : Option Bytes) (ms : Int) :
    let c := (config directory files.lookup).1
    let t := (runIn directory files args setting ms).1
    let chosen := selection c s files.lookup
    let session := loaded files.lookup chosen
    let outcome := FileOutcome.ofPath files.lookup
    let errors := (finished s session).emitter.errors
    session.scripts = chosen.files.filterMap (fun path => (outcome path).script?) ∧
    (∀ path ∈ chosen.files, (outcome path).script? = none →
      (outcome path).diagnostics ≠ [] ∧
      ∀ d ∈ (outcome path).diagnostics, d.severity = .error ∧
        ∃ e : Emitter, e.format = s.format ∧ e.render d <:+: t.stderr) ∧
    errors = (check s session).collector.count .error + chosen.missing + session.ioErrors +
      session.parseErrors ∧
    chosen.missing = (s.paths.map fun path => (absent files.lookup path).length).sum ∧
    session.ioErrors = (chosen.files.map fun path => (outcome path).ioErrors).sum ∧
    session.parseErrors = (chosen.files.map fun path => (outcome path).parseErrors).sum ∧
    t.status = (if 0 < errors then 1 else 0) ∧
    ∀ args', args'.filter (· ∉ displayArguments) = args.filter (· ∉ displayArguments) →
      (runIn directory files args' setting ms).1.status = t.status := by
  intro c t chosen session outcome errors
  have transcript : t = _ := runIn_eq noLogFile setting ms
  have status : t.status = (run directory files.lookup args).status := congrArg _ transcript
  obtain ⟨noScripts, noIo, noParse⟩ := counts_selection c s files.lookup
  refine ⟨?_, fun path hp none => ?_, errorCount_eq c s files.lookup,
    missing_selection c s files.lookup, ?_, ?_, ?_, fun args' same => ?_⟩
  · have scripts : session.scripts = _ := scripts_loaded files.lookup chosen
    rw [scripts, noScripts, List.nil_append]
  · refine ⟨FileOutcome.diagnostics_ne_nil none, fun d hd => ?_⟩
    refine ⟨FileOutcome.severity_of_diagnostics d hd, ?_⟩
    have writes := writes_loaded files.lookup chosen
    obtain ⟨e, format, shown⟩ := writes.texts d (List.mem_flatMap.mpr ⟨path, hp, hd⟩)
    refine ⟨e, format.trans (writes_selection c s files.lookup).format, ?_⟩
    rw [transcript]
    exact text_written (outputs_run s reads (outputs_loading c s files.lookup shown))
  · have io : session.ioErrors = _ := ioErrors_loaded files.lookup chosen
    rw [io, noIo, Nat.zero_add]
  · have parse : session.parseErrors = _ := parseErrors_loaded files.lookup chosen
    rw [parse, noParse, Nat.zero_add]
  · have checked : (run directory files.lookup args).status =
        (checkPaths c s files.lookup).status := by
      rw [run_of_settings reads]
    rw [status, checked]
    exact status_checkPaths c s files.lookup
  · have noLogFile' : ∀ arg ∈ args', ¬ (ascii "--log-file=").isPrefixOf arg := by
      intro arg ha hlog
      have other : arg ∉ displayArguments := by
        intro hd
        have none : ∀ a ∈ displayArguments, ¬ (ascii "--log-file=").isPrefixOf a := by decide
        exact none arg hd hlog
      have kept : arg ∈ args'.filter (· ∉ displayArguments) :=
        List.mem_filter.mpr ⟨ha, by simpa using other⟩
      rw [same] at kept
      exact noLogFile arg (List.mem_of_mem_filter kept) hlog
    rw [status, runIn_eq noLogFile' setting ms]
    exact status_run directory files.lookup same

/-- A file and a path that leads nowhere: the command fails, with warnings shown or not. -/
theorem exit_status_missing :
    let files : FileTree := .directory [(ascii "a.js", .file (ascii "x"))]
    let args := [ascii "a.js", ascii "b.js"]
    (∀ arg ∈ args, ¬ (ascii "--log-file=").isPrefixOf arg) ∧
      (∃ s, Settings.read (config [] files.lookup).1 args = .ok s) ∧
      (runIn [] files args none 0).1.status = 1 ∧
      (runIn [] files (ascii "--quiet" :: args) none 0).1.status = 1 := by
  intro files args
  have noLogFile : ∀ arg ∈ args, ¬ (ascii "--log-file=").isPrefixOf arg := by decide
  let s : Settings := ⟨.text, false, false, false, [], args⟩
  have reads : Settings.read (config [] files.lookup).1 args = .ok s := rfl
  obtain ⟨-, -, errors, missing, -, -, status, shown⟩ := exit_status noLogFile reads none 0
  have one : (s.paths.map fun path => (absent files.lookup path).length).sum = 1 := by
    decide +kernel
  have fails : (runIn [] files args none 0).1.status = 1 := by
    rw [status, errors, if_pos]
    omega
  exact ⟨noLogFile, ⟨s, reads⟩, fails, (shown (ascii "--quiet" :: args) rfl).trans fails⟩

end Command

end ModuleLint
