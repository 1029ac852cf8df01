import ModuleLint.Proofs.Check.Levels
import ModuleLint.Proofs.Command.ExitStatus

/-!
The levels that findings are recorded at by a command.

A level comes from the last argument that names the key, or else from the last rule of the file, or
else it is that of errors. The file is read line by line and the arguments one by one; what each
adds is told by the lines and the arguments alone, so it does not matter where the arguments stand.
-/

namespace ModuleLint

/-! ### The file -/

namespace Config

/-- A line of a table that gives a key a value. -/
structure Entry where
  table : Table
  key : Bytes
  value : Bytes

/-- The entry on a line without its comment. Lines of other tables are passed over. -/
def Entry.ofLine? (table : Table) (line : Bytes) : Option Entry :=
  if table = .other then none
  else (line.cut? Byte.equals).map fun (key, value) => ⟨table, trim key, unquoted (trim value)⟩

/-- The entries on the lines behind one that belongs to a table. -/
def entriesFrom (table : Table) : List Bytes → List Entry
  | [] => []
  | line :: rest =>
    let line := trim (withoutComment false line)
    if line.head? = some Byte.openBracket then entriesFrom (.ofHeader line) rest
    else (Entry.ofLine? table line).toList ++ entriesFrom table rest

/-- The entries of a file. -/
def entries (text : Bytes) : List Entry := entriesFrom .other (Bytes.lines text)

/-- The level that an entry gives its key, if it is a valid rule. -/
def Entry.rule? (e : Entry) : Option (Bytes × CheckLevel) :=
  if e.table = .rules then (ruleLevel? e.value).map (e.key, ·) else none

/-- Whether an entry asks for warnings to be raised to errors, if it is about that. -/
def Entry.raises? (e : Entry) : Option Bool :=
  if e.table = .check ∧ e.key = ascii "warnings-as-errors" then some (e.value == ascii "true")
  else none

/-- The valid rules of a file. -/
def rules (text : Bytes) : List (Bytes × CheckLevel) := (entries text).filterMap Entry.rule?

/-- Whether a file asks for warnings to be raised to errors: its last entry about that says so. -/
def raises (text : Bytes) : Bool := ((entries text).filterMap Entry.raises?).getLast?.getD false

/-- The configuration with an entry. -/
def take (c : Config) (e : Entry) : Config :=
  match e.table with
  | .check => (c.setting e.key e.value).1
  | .rules => (c.rule e.key e.value).1
  | .other => c

/-- A line adds its entry to a configuration. -/
lemma config_entry (c : Config) {table : Table} (proper : table ≠ .other) (line : Bytes) :
    (c.entry table line).1 = (Entry.ofLine? table line).toList.foldl take c := by
  unfold entry Entry.ofLine?
  rw [if_neg proper]
  cases line.cut? Byte.equals with
  | none => rfl
  | some pair =>
    cases table with
    | check | rules => rfl
    | other => exact absurd rfl proper

lemma foldl_next (r : Reading) (lines : List Bytes) :
    (lines.foldl Reading.next r).config = (entriesFrom r.table lines).foldl take r.config := by
  induction lines generalizing r with
  | nil => rfl
  | cons line lines ih =>
    rw [List.foldl_cons, ih, entriesFrom, Reading.next]
    dsimp only
    by_cases empty : (trim (withoutComment false line)).isEmpty
    · simp [List.isEmpty_iff.mp empty, Entry.ofLine?, Bytes.cut?]
    by_cases header : (trim (withoutComment false line)).head? = some Byte.openBracket
    · simp [empty, header]
    by_cases other : r.table = .other
    · simp [empty, header, other, Entry.ofLine?]
    · simp [empty, header, other, config_entry _ other]

lemma parse_eq (text : Bytes) : (parse text).1 = (entries text).foldl take standard :=
  foldl_next ⟨standard, .other, 0, []⟩ (Bytes.lines text)

lemma levels_take (c : Config) (e : Entry) : (c.take e).levels = c.levels ++ e.rule?.toList := by
  unfold take Entry.rule?
  cases e.table with
  | check =>
    rw [if_neg (by decide)]
    unfold setting
    split_ifs <;> exact (List.append_nil _).symm
  | rules =>
    dsimp only
    unfold rule
    cases ruleLevel? e.value with
    | none => exact (List.append_nil _).symm
    | some level => rfl
  | other => exact (List.append_nil _).symm

lemma raises_take (c : Config) (e : Entry) :
    (c.take e).warningsAsErrors = e.raises?.getD c.warningsAsErrors := by
  unfold take Entry.raises?
  cases e.table with
  | check =>
    by_cases about : e.key = ascii "warnings-as-errors"
    · have format : ascii "warnings-as-errors" ≠ ascii "format" := by decide
      simp [setting, about, format]
    · simp only [about, and_false, if_false, Option.getD_none]
      unfold setting
      split_ifs <;> rfl
  | rules =>
    dsimp only
    unfold rule
    cases ruleLevel? e.value <;> rfl
  | other => rfl

/-- Rules are added in the order of the lines. -/
lemma levels_foldl (l : List Entry) (c : Config) :
    (l.foldl take c).levels = c.levels ++ l.filterMap Entry.rule? := by
  induction l generalizing c with
  | nil => exact (List.append_nil _).symm
  | cons e l ih =>
    rw [List.foldl_cons, ih, levels_take, List.filterMap_cons, List.append_assoc]
    cases e.rule? <;> rfl

/-- The last line about warnings holds. -/
lemma raises_foldl (l : List Entry) (c : Config) : (l.foldl take c).warningsAsErrors =
    (l.filterMap Entry.raises?).getLast?.getD c.warningsAsErrors := by
  induction l generalizing c with
  | nil => rfl
  | cons e l ih =>
    rw [List.foldl_cons, ih, raises_take, List.filterMap_cons]
    cases e.raises? with
    | none => rfl
    | some b =>
      rw [List.getLast?_cons]
      rfl

lemma levels_parse (text : Bytes) : (parse text).1.levels = rules text := by
  rw [parse_eq, levels_foldl]
  rfl

lemma warningsAsErrors_parse (text : Bytes) : (parse text).1.warningsAsErrors = raises text := by
  rw [parse_eq, raises_foldl]
  rfl

end Config

/-! ### The arguments -/

namespace Settings

/-- The argument that asks for warnings to be raised to errors. -/
def raising : Bytes := ascii "--Werror"

/-- The levels that arguments choose, in order. -/
def choices (args : List Bytes) : List (Bytes × CheckLevel) := args.filterMap levelOption?

/-- Whether an argument is about the levels of findings. -/
def isAboutLevels (arg : Bytes) : Bool := (levelOption? arg).isSome || arg == raising

/-- The settings with other levels. -/
def choosing (s : Settings) (levels : List (Bytes × CheckLevel)) (raises : Bool) : Settings :=
  { s with levels, warningsAsErrors := raises }

variable {c : Config} {s t u : Settings} {args args' : List Bytes} {arg key : Bytes}
  {level : CheckLevel} {levels : List (Bytes × CheckLevel)} {raises : Bool}

lemma next_levelOption (h : levelOption? arg = some (key, level)) (s : Settings) :
    s.next arg = s.readLevel arg := by
  obtain ⟨choice, hc, found⟩ := List.exists_of_findSome?_eq_some h
  obtain ⟨start, level'⟩ := choice
  have starts : start.isPrefixOf arg := by
    by_contra other
    simp [LogOptions.after?, other] at found
  obtain ⟨rest, rfl⟩ := List.isPrefixOf_iff_prefix.mp starts
  simp only [levelOptions, List.mem_cons, List.not_mem_nil, or_false, Prod.mk.injEq] at hc
  rcases hc with ⟨rfl, -⟩ | ⟨rfl, -⟩ | ⟨rfl, -⟩ <;> rfl

lemma next_choice {choice : Bytes × CheckLevel} (option : levelOption? arg = some choice)
    (known : (FindingKind.find? choice.1).isSome) :
    (u.choosing levels raises).next arg = .ok (u.choosing (levels ++ [choice]) raises) := by
  have found : ¬ (FindingKind.find? choice.1).isNone := by
    rwa [Option.isNone_iff_eq_none, ← ne_eq, Option.ne_none_iff_isSome]
  rw [next_levelOption option, readLevel, option]
  exact if_neg found

lemma next_raising : (u.choosing levels raises).next raising = .ok (u.choosing levels true) := rfl

/-- Other arguments neither see levels nor choose them. -/
lemma next_other (other : isAboutLevels arg = false) :
    (u.choosing levels raises).next arg = (u.next arg).map (·.choosing levels raises) := by
  obtain ⟨noLevel, noRaise⟩ := Bool.or_eq_false_iff.mp other
  have noRaise : ¬ arg = ascii "--Werror" := beq_eq_false_iff_ne.mp noRaise
  have noLevel : levelOption? arg = none := by simpa using noLevel
  unfold next
  split
  · rfl
  split
  · rfl
  split
  · rfl
  split
  · rfl
  cases LogOptions.after? (ascii "--format=") arg with
  | some format =>
    dsimp only
    unfold readFormat
    split
    · rfl
    · split <;> rfl
  | none =>
    dsimp only
    split
    · rw [readLevel, readLevel, noLevel]
      rfl
    split
    · rfl
    split <;> rfl

/-- **Arguments about levels choose them and nothing else**, wherever they stand. -/
lemma foldlM_choosing (known : ∀ choice ∈ choices args, (FindingKind.find? choice.1).isSome) :
    args.foldlM next (u.choosing levels raises) =
      ((args.filter (!isAboutLevels ·)).foldlM next u).map
        (·.choosing (levels ++ choices args) (raises || args.contains raising)) := by
  induction args generalizing u levels raises with
  | nil =>
    rw [choices, List.filterMap_nil, List.append_nil, List.contains_nil, Bool.or_false]
    rfl
  | cons arg args ih =>
    rw [List.foldlM_cons, List.contains_cons]
    cases option : levelOption? arg with
    | some choice =>
      have all : choices (arg :: args) = choice :: choices args := List.filterMap_cons_some option
      have about : isAboutLevels arg := by simp [isAboutLevels, option]
      have noRaise : (raising == arg) = false := by
        refine beq_eq_false_iff_ne.mpr ?_
        rintro rfl
        cases option
      rw [all] at known ⊢
      obtain ⟨first, more⟩ := List.forall_mem_cons.mp known
      rw [next_choice option first, List.filter_cons_of_neg (by simpa using about), noRaise,
        Bool.false_or]
      exact (ih more).trans (by rw [List.append_assoc]; rfl)
    | none =>
      have all : choices (arg :: args) = choices args := List.filterMap_cons_none option
      rw [all] at known ⊢
      by_cases raise : arg = raising
      · subst raise
        have about : isAboutLevels raising := by decide
        rw [next_raising, List.filter_cons_of_neg (by simpa using about), BEq.rfl, Bool.true_or,
          Bool.or_true]
        exact (ih known).trans (by rw [Bool.true_or])
      · have other : isAboutLevels arg = false := by simp [isAboutLevels, option, raise]
        have noRaise : (raising == arg) = false := beq_eq_false_iff_ne.mpr (Ne.symm raise)
        rw [next_other other, List.filter_cons_of_pos (by simp [other]), List.foldlM_cons, noRaise,
          Bool.false_or]
        cases u.next arg with
        | error stop => rfl
        | ok t => exact ih known

/-- A key in an argument is known if the arguments are not rejected. -/
lemma known_of_ok (h : args.foldlM next s = .ok t) :
    ∀ choice ∈ choices args, (FindingKind.find? choice.1).isSome := by
  induction args generalizing s with
  | nil => nofun
  | cons arg args ih =>
    rw [List.foldlM_cons] at h
    cases hn : s.next arg with
    | error stop =>
      rw [hn] at h
      cases h
    | ok u =>
      rw [hn] at h
      have behind := ih h
      cases option : levelOption? arg with
      | none => rwa [choices, List.filterMap_cons_none option]
      | some choice =>
        rw [choices, List.filterMap_cons_some option]
        refine List.forall_mem_cons.mpr ⟨?_, behind⟩
        rw [next_levelOption option, readLevel, option] at hn
        dsimp only at hn
        split at hn
        · cases hn
        case isFalse found =>
          rwa [Option.isNone_iff_eq_none, ← ne_eq, Option.ne_none_iff_isSome] at found

/-- Without a path the current directory is checked. -/
def orHere (s : Settings) : Settings :=
  if s.paths.isEmpty then { s with paths := [ascii "."] } else s

/-- The settings are those of the other arguments, with the levels of the file and of the arguments
about levels. -/
lemma read_eq (known : ∀ choice ∈ choices args, (FindingKind.find? choice.1).isSome) :
    read c args = ((args.filter (!isAboutLevels ·)).foldlM next (ofConfig c)).map fun u =>
      u.orHere.choosing (c.levels ++ choices args)
        (c.warningsAsErrors || args.contains raising) := by
  have fold := @foldlM_choosing (ofConfig c) args c.levels c.warningsAsErrors known
  have start : (ofConfig c).choosing c.levels c.warningsAsErrors = ofConfig c := rfl
  rw [start] at fold
  unfold read
  rw [fold]
  cases (args.filter (!isAboutLevels ·)).foldlM next (ofConfig c) with
  | error stop => rfl
  | ok u =>
    refine congrArg Except.ok ?_
    by_cases here : u.paths.isEmpty <;> simp [orHere, choosing, here]

lemma known_of_read (reads : read c args = .ok s) :
    ∀ choice ∈ choices args, (FindingKind.find? choice.1).isSome := by
  unfold read at reads
  cases fold : args.foldlM next (ofConfig c) with
  | error stop =>
    rw [fold] at reads
    cases reads
  | ok t => exact known_of_ok fold

lemma levels_of_read (reads : read c args = .ok s) :
    s.levels = c.levels ++ choices args ∧
      s.warningsAsErrors = (c.warningsAsErrors || args.contains raising) := by
  rw [read_eq (known_of_read reads)] at reads
  cases fold : (args.filter (!isAboutLevels ·)).foldlM next (ofConfig c) with
  | error stop =>
    rw [fold] at reads
    cases reads
  | ok t =>
    rw [fold] at reads
    cases reads
    exact ⟨rfl, rfl⟩

/-- **Where arguments about levels stand does not matter**, but for the order of the levels. -/
lemma read_moved (reads : read c args = .ok s) (same : choices args' = choices args)
    (raises : raising ∈ args' ↔ raising ∈ args)
    (others : args'.filter (!isAboutLevels ·) = args.filter (!isAboutLevels ·)) :
    read c args' = read c args := by
  have known := known_of_read reads
  have contains : args'.contains raising = args.contains raising := by
    rw [Bool.eq_iff_iff, List.contains_iff_mem, List.contains_iff_mem, raises]
  rw [read_eq known, read_eq (same ▸ known), same, contains, others]

end Settings

/-! ### Recorded levels -/

lemma FindingKind.defaultLevel_error {kind : FindingKind} (h : kind ∈ known) :
    kind.defaultLevel = .error := by
  have levels : ∀ k ∈ known, k.defaultLevel = .error := by decide
  exact levels kind h

namespace Collector

lemma chosen_append (l l' : List (Bytes × CheckLevel)) (key : Bytes) :
    chosen (l ++ l') key = (chosen l' key).or (chosen l key) := by
  rw [chosen, List.reverse_append, List.lookup_append]
  rfl

end Collector

namespace Command

/-- The text of the configuration file, empty if there is none. -/
def configText (lookup : FileLookup) : Bytes :=
  match lookup Config.fileName with
  | .error _ => []
  | .ok t => t.content

/-- The level of a key: that of the last argument that names it, or else that of the last rule for
it in the file, or else that of errors. -/
def effectiveLevel (text : Bytes) (args : List Bytes) (key : Bytes) : CheckLevel :=
  ((Collector.chosen (Settings.choices args) key).or
    (Collector.chosen (Config.rules text) key)).getD .error

/-- Whether warnings are raised to errors. -/
def raisesWarnings (text : Bytes) (args : List Bytes) : Bool :=
  args.contains Settings.raising || Config.raises text

/-- The finding that a report becomes, unless its level is off. -/
def recorded? (text : Bytes) (args : List Bytes) (r : Report) : Option Finding :=
  let level := effectiveLevel text args r.kind.key
  if level = .off then none
  else some ⟨r.kind, level.raised (raisesWarnings text args), r.span⟩

/-- What the rules report of scripts. -/
def reportsOf (scripts : List Node) : List Report :=
  (CheckState.start.checkProgram Node.isModuleFile false (.root (program scripts))).reports

variable {directory : Bytes} {lookup : FileLookup} {args : List Bytes} {s : Settings}

lemma config_eq (directory : Bytes) (lookup : FileLookup) :
    (config directory lookup).1 = (Config.parse (configText lookup)).1 := by
  unfold config configText
  cases lookup Config.fileName with
  | error e => rfl
  | ok t => rfl

lemma levels_of_settings (reads : Settings.read (config directory lookup).1 args = .ok s) :
    s.levels = Config.rules (configText lookup) ++ Settings.choices args ∧
      s.warningsAsErrors = raisesWarnings (configText lookup) args := by
  obtain ⟨levels, raises⟩ := Settings.levels_of_read reads
  rw [config_eq, Config.levels_parse] at levels
  rw [config_eq, Config.warningsAsErrors_parse, Bool.or_comm] at raises
  exact ⟨levels, raises⟩

lemma finding?_recorded (reads : Settings.read (config directory lookup).1 args = .ok s)
    {r : Report} (known : r.kind ∈ FindingKind.known) :
    (collector s).finding? r = recorded? (configText lookup) args r := by
  obtain ⟨levels, raises⟩ := levels_of_settings reads
  have chosen : collector s = ⟨s.levels.reverse, s.warningsAsErrors, []⟩ :=
    Collector.ofChoices_eq s.levels s.warningsAsErrors
  have level : (collector s).levelFor r.kind =
      effectiveLevel (configText lookup) args r.kind.key := by
    rw [chosen, levels, Collector.levelFor, FindingKind.defaultLevel_error known]
    exact congrArg (Option.getD · _) (Collector.chosen_append _ _ _)
  rw [Collector.finding?, level, chosen, raises]
  rfl

/-- The findings of a check are the reports at their levels, sorted. -/
lemma findings_check (reads : Settings.read (config directory lookup).1 args = .ok s)
    (session : Session) : (check s session).collector.findings =
      ((reportsOf session.scripts).filterMap (recorded? (configText lookup) args)).mergeSort
        Collector.precedes := by
  have checked : (check s session).collector =
      ((collector s).checked Node.isModuleFile false (program session.scripts)).sort := rfl
  rw [checked, Collector.sort, Collector.findings_checked (findings_collector s)]
  refine congrArg (List.mergeSort · Collector.precedes) (List.filterMap_congr fun r hr => ?_)
  exact finding?_recorded reads (CheckState.known_checkProgram _ _ _ r hr)

/-- A run shows what its check found. -/
lemma shown_of_run (reads : Settings.read (config directory lookup).1 args = .ok s) :
    let session := loaded lookup (selection (config directory lookup).1 s lookup)
    (session.emitAll
        ((shown s (check s session).collector.findings).map Diagnostic.ofFinding)).2 <:+:
      (run directory lookup args).outputs := by
  intro session
  rw [run_of_settings reads]
  refine List.IsInfix.trans ?_ (List.suffix_append _ _).isInfix
  by_cases nothing : NothingChosen (config directory lookup).1 s lookup
  · have noFiles := List.isEmpty_iff.mp nothing.1
    have noScripts : session.scripts = [] := by
      change (loaded lookup _).scripts = []
      rw [loaded, noFiles, gather, (counts_selection _ s lookup).1]
    have none : shown s [] = [] := by simp [shown]
    rw [findings_of_no_scripts s noScripts, none]
    exact List.nil_infix
  · rw [checkPaths_of_chosen _ _ _ nothing]
    refine List.IsInfix.trans ?_ (List.suffix_append _ _).isInfix
    unfold checkSelection
    simp only [List.append_assoc]
    have first := List.prefix_append (session.emitAll
      ((shown s (check s session).collector.findings).map Diagnostic.ofFinding)).2
    exact ((first _).isInfix.trans (List.suffix_append _ _).isInfix).trans
      (List.suffix_append _ _).isInfix

/-- **The level of each finding follows from the file and the arguments.** A run whose arguments are
not rejected records each report at the level of the last argument that names its key, or else of
the last rule for it, or else as an error; it drops what is off and raises warnings if an argument
or the file asks for it. It shows what it records, and where the arguments about levels stand among
the others does not matter. -/
theorem findings_of_run (reads : Settings.read (config directory lookup).1 args = .ok s) :
    let session := loaded lookup (selection (config directory lookup).1 s lookup)
    let findings := (check s session).collector.findings
    findings = ((reportsOf session.scripts).filterMap
        (recorded? (configText lookup) args)).mergeSort Collector.precedes ∧
    (session.emitAll ((shown s findings).map Diagnostic.ofFinding)).2 <:+:
      (run directory lookup args).outputs ∧
    ∀ args', Settings.choices args' = Settings.choices args →
      (Settings.raising ∈ args' ↔ Settings.raising ∈ args) →
      args'.filter (!Settings.isAboutLevels ·) = args.filter (!Settings.isAboutLevels ·) →
      run directory lookup args' = run directory lookup args := by
  intro session findings
  refine ⟨findings_check reads session, shown_of_run reads, fun args' same raises others => ?_⟩
  unfold run
  dsimp only
  rw [Settings.read_moved reads same raises others]

/-- An argument overrides a rule of the file, and a rule that no argument overrides stands. -/
theorem findings_of_run_warning :
    let script := ascii "goog.module('a'); this; throw 1;"
    let rules := ascii "[check.rules]\nJSC_GOOG_MODULE_USES_THROW = off\n" ++
      ascii "JSC_GOOG_MODULE_REFERENCES_THIS = warning\n"
    let files : FileTree := .directory
      [(ascii "a.js", .file script), (Config.fileName, .file rules)]
    let flag := ascii "--jscomp_warning=JSC_GOOG_MODULE_USES_THROW"
    let path := ascii "a.js"
    ∃ s, Settings.read (config [] files.lookup).1 [flag, path] = .ok s ∧
      ((check s (loaded files.lookup (selection (config [] files.lookup).1 s
        files.lookup))).collector.findings.map fun f => (f.kind.key, f.level)) =
        [(ascii "JSC_GOOG_MODULE_REFERENCES_THIS", .warning),
          (ascii "JSC_GOOG_MODULE_USES_THROW", .warning)] ∧
      run [] files.lookup [path, flag] = run [] files.lookup [flag, path] := by
  intro script rules files flag path
  let levels : List (Bytes × CheckLevel) :=
    [(ascii "JSC_GOOG_MODULE_USES_THROW", .off),
      (ascii "JSC_GOOG_MODULE_REFERENCES_THIS", .warning),
      (ascii "JSC_GOOG_MODULE_USES_THROW", .warning)]
  let s : Settings := ⟨.text, false, false, false, levels, [path]⟩
  have reads : Settings.read (config [] files.lookup).1 [flag, path] = .ok s := rfl
  obtain ⟨findings, -, moved⟩ := @findings_of_run [] files.lookup [flag, path] s reads
  have swapped : run [] files.lookup [path, flag] = run [] files.lookup [flag, path] :=
    moved [path, flag] (by decide +kernel) (by decide +kernel) (by decide +kernel)
  refine ⟨s, reads, ?_, swapped⟩
  rw [findings, List.mergeSort_of_pairwise (by decide +kernel)]
  decide +kernel

end Command

end ModuleLint
