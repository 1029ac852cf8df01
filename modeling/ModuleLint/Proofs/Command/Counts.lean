import Mathlib.Algebra.BigOperators.Group.List.Basic
import Mathlib.Algebra.Ring.Nat
import ModuleLint.Proofs.Check.SortedReport
import ModuleLint.Proofs.Command.Display
import ModuleLint.Proofs.Command.Loading

/-!
The errors that are counted on the way to an exit status.

A command counts errors in three places: the session its failures, the collector its findings, and
the emitter what it writes. Each step of a command keeps the counts in agreement.
-/

namespace ModuleLint

namespace Command

open Session

/-! ### Going through lists -/

section Gather

variable {σ α β : Type} {f : σ → α → σ × List Output}

lemma gather_writes {session : σ → Session} {l : α → List Diagnostic}
    (step : ∀ s a, Writes (session s) (session (f s a).1) (f s a).2 (l a)) (s : σ) (as : List α) :
    Writes (session s) (session (gather f s as).1) (gather f s as).2 (as.flatMap l) := by
  induction as generalizing s with
  | nil => exact writes_nil _ []
  | cons a as ih => exact (step s a).append (ih (f s a).1)

lemma gather_append {items : σ → List β} {more : α → List β}
    (step : ∀ s a, items (f s a).1 = items s ++ more a) (s : σ) (as : List α) :
    items (gather f s as).1 = items s ++ as.flatMap more := by
  induction as generalizing s with
  | nil => exact (List.append_nil _).symm
  | cons a as ih => exact (ih (f s a).1).trans (by rw [step, List.append_assoc, List.flatMap_cons])

lemma gather_sum {count : σ → Nat} {more : α → Nat}
    (step : ∀ s a, count (f s a).1 = count s + more a) (s : σ) (as : List α) :
    count (gather f s as).1 = count s + (as.map more).sum := by
  induction as generalizing s with
  | nil => rfl
  | cons a as ih =>
    exact (ih (f s a).1).trans (by rw [step, Nat.add_assoc, List.map_cons, List.sum_cons])

end Gather

/-! ### Choosing files -/

variable (c : Config) (s : Settings) (lookup : FileLookup)

/-- The selection that a command makes. -/
def selection : Selection := (gather (select c lookup) ⟨.start s.format, [], 0⟩ s.paths).1

/-- The files of a path. -/
def filesOf (path : Bytes) : List Bytes :=
  match lookup path with
  | .ok (.directory _) => (c.discover lookup path).1
  | .ok (.file _) => [path]
  | .error _ => []

/-- The errors of a path that leads nowhere. -/
def absent (path : Bytes) : List Diagnostic :=
  match lookup path with
  | .ok _ => []
  | .error _ => [plainError (ascii "E001") (ascii "file not found: " ++ path)]

lemma severity_of_absent (path : Bytes) : ∀ d ∈ absent lookup path, d.severity = .error := by
  unfold absent
  split
  · nofun
  · exact List.forall_mem_singleton.mpr rfl

lemma select_adds (chosen : Selection) (path : Bytes) :
    let r := select c lookup chosen path
    r.1.files = chosen.files ++ filesOf c lookup path ∧
    r.1.missing = chosen.missing + (absent lookup path).length ∧
    r.1.session = { chosen.session with emitter := r.1.session.emitter } ∧
    Writes chosen.session r.1.session r.2 (absent lookup path) := by
  unfold select filesOf absent
  cases lookup path with
  | error e => exact ⟨(List.append_nil _).symm, rfl, rfl, emit_writes _ _⟩
  | ok t =>
    cases t with
    | directory l => exact ⟨rfl, rfl, rfl, writes_nil _ _⟩
    | file content => exact ⟨rfl, rfl, rfl, writes_nil _ _⟩

lemma files_selection : (selection c s lookup).files = s.paths.flatMap (filesOf c lookup) :=
  gather_append (fun chosen path => (select_adds c lookup chosen path).1) _ _

lemma missing_selection :
    (selection c s lookup).missing = (s.paths.map fun path => (absent lookup path).length).sum :=
  (gather_sum (fun chosen path => (select_adds c lookup chosen path).2.1) _ _).trans
    (Nat.zero_add _)

lemma writes_selection : Writes (.start s.format) (selection c s lookup).session
    (gather (select c lookup) ⟨.start s.format, [], 0⟩ s.paths).2
    (s.paths.flatMap (absent lookup)) :=
  @gather_writes _ _ (select c lookup) Selection.session _
    (fun chosen path => (select_adds c lookup chosen path).2.2.2) ⟨.start s.format, [], 0⟩ s.paths

/-- While files are chosen nothing is loaded. -/
lemma session_selection : (selection c s lookup).session =
    { Session.start s.format with emitter := (selection c s lookup).session.emitter } := by
  have keeps : ∀ (paths : List Bytes) (before : Selection),
      (gather (select c lookup) before paths).1.session =
        { before.session with
          emitter := (gather (select c lookup) before paths).1.session.emitter } := by
    intro paths
    induction paths with
    | nil => exact fun _ => rfl
    | cons path paths ih =>
      intro before
      have first := (select_adds c lookup before path).2.2.1
      have rest := ih (select c lookup before path).1
      rw [first] at rest
      exact rest
  exact keeps _ _

lemma counts_selection :
    let session := (selection c s lookup).session
    session.scripts = [] ∧ session.ioErrors = 0 ∧ session.parseErrors = 0 := by
  intro session
  have same : session = _ := session_selection c s lookup
  rw [same]
  exact ⟨rfl, rfl, rfl⟩

/-! ### Loading files -/

/-- The session after the chosen files are loaded. -/
def loaded (chosen : Selection) : Session :=
  (gather (loadFile lookup) chosen.session chosen.files).1

variable (chosen : Selection)

lemma scripts_loaded : (loaded lookup chosen).scripts = chosen.session.scripts ++
    chosen.files.filterMap fun path => (FileOutcome.ofPath lookup path).script? := by
  rw [List.filterMap_eq_flatMap_toList]
  exact @gather_append _ _ _ (loadFile lookup) Session.scripts _
    (fun s path => (load_loads lookup s path).scripts) _ _

lemma ioErrors_loaded : (loaded lookup chosen).ioErrors = chosen.session.ioErrors +
    (chosen.files.map fun path => (FileOutcome.ofPath lookup path).ioErrors).sum :=
  @gather_sum _ _ (loadFile lookup) Session.ioErrors _
    (fun s path => (load_loads lookup s path).ioErrors) _ _

lemma parseErrors_loaded : (loaded lookup chosen).parseErrors = chosen.session.parseErrors +
    (chosen.files.map fun path => (FileOutcome.ofPath lookup path).parseErrors).sum :=
  @gather_sum _ _ (loadFile lookup) Session.parseErrors _
    (fun s path => (load_loads lookup s path).parseErrors) _ _

lemma writes_loaded : Writes chosen.session (loaded lookup chosen)
    (gather (loadFile lookup) chosen.session chosen.files).2
    (chosen.files.flatMap fun path => (FileOutcome.ofPath lookup path).diagnostics) :=
  @gather_writes _ _ (loadFile lookup) id _
    (fun s path => (load_loads lookup s path).writes.record _) _ _

/-! ### Showing findings -/

/-- The session after the findings are shown. -/
def finished (session : Session) : Session :=
  (session.emitAll
    ((shown s (check s session).collector.findings).map Diagnostic.ofFinding)).1

lemma isError_ofFinding (f : Finding) :
    ((Diagnostic.ofFinding f).severity == .error) = (f.level == .error) := by
  rw [Diagnostic.ofFinding, Diagnostic.plain]
  by_cases h : f.level = .error <;> simp [h]

/-- Whatever is left out, all errors are shown. -/
lemma countP_shown (l : List Finding) :
    ((shown s l).map Diagnostic.ofFinding).countP (·.severity == .error) =
      l.countP (·.level == .error) := by
  have level : (fun d : Diagnostic => d.severity == .error) ∘ Diagnostic.ofFinding =
      fun f : Finding => f.level == .error := funext isError_ofFinding
  rw [List.countP_map, level]
  unfold shown
  split
  · rw [List.countP_filter]
    simp
  · rfl

lemma errors_finished (session : Session) : (finished s session).emitter.errors =
    session.emitter.errors + (check s session).collector.count .error := by
  rw [finished, (emitAll_writes _ _).errors, countP_shown]
  rfl

/-- Checks differ by the scripts and by what settings say apart from what is shown. -/
lemma check_congr {s s' : Settings} (hs : s.core = s'.core) {session session' : Session}
    (h : session.scripts = session'.scripts) : check s session = check s' session' := by
  have same : check s.core session = check s'.core session' := by
    unfold check
    rw [h, hs]
  exact same

/-! ### Errors -/

lemma countP_error {l : List Diagnostic} (h : ∀ d ∈ l, d.severity = .error) :
    l.countP (·.severity == .error) = l.length :=
  List.countP_eq_length.mpr fun d hd => by rw [h d hd]; rfl

lemma errors_selection :
    (selection c s lookup).session.emitter.errors = (selection c s lookup).missing := by
  have errors : ∀ d ∈ s.paths.flatMap (absent lookup), d.severity = .error := by
    intro d hd
    obtain ⟨path, -, hd⟩ := List.mem_flatMap.mp hd
    exact severity_of_absent lookup path d hd
  rw [(writes_selection c s lookup).errors, countP_error errors, missing_selection,
    List.length_flatMap]
  exact Nat.zero_add _

lemma errors_loaded : (loaded lookup chosen).emitter.errors = chosen.session.emitter.errors +
    ((chosen.files.map fun path => (FileOutcome.ofPath lookup path).ioErrors).sum +
      (chosen.files.map fun path => (FileOutcome.ofPath lookup path).parseErrors).sum) := by
  have errors : ∀ d ∈ chosen.files.flatMap fun path => (FileOutcome.ofPath lookup path).diagnostics,
      d.severity = .error := by
    intro d hd
    obtain ⟨path, -, hd⟩ := List.mem_flatMap.mp hd
    exact FileOutcome.severity_of_diagnostics d hd
  rw [(writes_loaded lookup chosen).errors, countP_error errors, List.length_flatMap]
  simp only [FileOutcome.length_diagnostics, List.sum_map_add]

/-- The errors that a command writes. -/
def errorCount : Nat := (finished s (loaded lookup (selection c s lookup))).emitter.errors

/-- The three counts agree with the errors that are written. -/
lemma errorCount_eq :
    let session := loaded lookup (selection c s lookup)
    errorCount c s lookup = (check s session).collector.count .error +
      (selection c s lookup).missing + session.ioErrors + session.parseErrors := by
  intro session
  obtain ⟨-, noIo, noParse⟩ := counts_selection c s lookup
  have io : session.ioErrors = _ := ioErrors_loaded lookup (selection c s lookup)
  have parse : session.parseErrors = _ := parseErrors_loaded lookup (selection c s lookup)
  have written : session.emitter.errors = _ := errors_loaded lookup (selection c s lookup)
  have total : errorCount c s lookup = _ := errors_finished s session
  rw [errors_selection] at written
  omega

/-! ### The status -/

lemma findings_collector : (collector s).findings = [] := by
  have keeps : ∀ (levels : List (Bytes × CheckLevel)) (c : Collector),
      (levels.foldl (fun c choice => c.setLevel choice.1 choice.2) c).findings = c.findings := by
    intro levels
    induction levels with
    | nil => exact fun _ => rfl
    | cons choice levels ih => exact fun c => ih (c.setLevel choice.1 choice.2)
  exact keeps _ _

/-- Nothing is found where there are no scripts. -/
lemma findings_of_no_scripts {session : Session} (h : session.scripts = []) :
    (check s session).collector.findings = [] := by
  have checked : (check s session).collector =
      ((collector s).checked Node.isModuleFile false (program session.scripts)).sort := rfl
  rw [checked, h, Collector.checked_eq (by simp)]
  change ((collector s).add []).sort.findings = []
  rw [Collector.add_nil, Collector.sort, findings_collector, List.mergeSort_nil]

lemma count_of_no_scripts {session : Session} (h : session.scripts = []) (level : CheckLevel) :
    (check s session).collector.count level = 0 := by
  rw [Collector.count, findings_of_no_scripts s h, List.countP_nil]

/-- Nothing was chosen, and nothing is missing. -/
def NothingChosen : Prop :=
  (selection c s lookup).files.isEmpty ∧ (selection c s lookup).missing = 0

lemma status_of_nothing (h : NothingChosen c s lookup) : (checkPaths c s lookup).status = 0 :=
  congrArg Result.status (if_pos h)

lemma checkPaths_of_chosen (h : ¬ NothingChosen c s lookup) :
    let result := checkSelection s lookup (selection c s lookup)
    checkPaths c s lookup =
      { result with
        outputs := (gather (select c lookup) ⟨.start s.format, [], 0⟩ s.paths).2 ++
          result.outputs } :=
  if_neg h

/-- The status says whether errors were written. -/
lemma status_checkPaths : (checkPaths c s lookup).status =
    if 0 < errorCount c s lookup then 1 else 0 := by
  have total := errorCount_eq c s lookup
  dsimp only at total
  by_cases h : NothingChosen c s lookup
  · rw [status_of_nothing c s lookup h]
    obtain ⟨noFiles, noneMissing⟩ := h
    have noFiles : (selection c s lookup).files = [] := List.isEmpty_iff.mp noFiles
    have same : loaded lookup (selection c s lookup) = (selection c s lookup).session := by
      rw [loaded, noFiles, gather]
    obtain ⟨noScripts, noIo, noParse⟩ := counts_selection c s lookup
    rw [same, noneMissing, noIo, noParse, count_of_no_scripts s noScripts] at total
    rw [total]
    rfl
  · rw [checkPaths_of_chosen c s lookup h]
    have status : (checkSelection s lookup (selection c s lookup)).status =
        if (check s (loaded lookup (selection c s lookup))).collector.count .error > 0 ∨
          (selection c s lookup).missing + (loaded lookup (selection c s lookup)).ioErrors +
            (loaded lookup (selection c s lookup)).parseErrors > 0 then 1 else 0 := rfl
    dsimp only
    rw [status, total]
    exact if_congr (by omega) rfl rfl

/-- The errors do not depend on what is shown. -/
lemma errorCount_congr {s s' : Settings} (h : s.core = s'.core) :
    errorCount c s lookup = errorCount c s' lookup := by
  have paths : s.core.paths = s'.core.paths := by rw [h]
  change s.paths = s'.paths at paths
  have files : (selection c s lookup).files = (selection c s' lookup).files := by
    rw [files_selection, files_selection, paths]
  have missing : (selection c s lookup).missing = (selection c s' lookup).missing := by
    rw [missing_selection, missing_selection, paths]
  obtain ⟨noScripts, noIo, noParse⟩ := counts_selection c s lookup
  obtain ⟨noScripts', noIo', noParse'⟩ := counts_selection c s' lookup
  have scripts : (loaded lookup (selection c s lookup)).scripts =
      (loaded lookup (selection c s' lookup)).scripts := by
    rw [scripts_loaded, scripts_loaded, noScripts, noScripts', files]
  rw [errorCount_eq, errorCount_eq, check_congr h scripts, missing]
  rw [ioErrors_loaded, ioErrors_loaded, parseErrors_loaded, parseErrors_loaded]
  rw [noIo, noIo', noParse, noParse', files]

end Command

end ModuleLint
