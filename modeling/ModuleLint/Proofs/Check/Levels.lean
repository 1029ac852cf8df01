import ModuleLint.Proofs.Check.SortedReport

/-!
Levels decide how findings are shown, not which there are.

The rules report known kinds alone, and none of these is off unless it is switched off. So a run
under other levels records what a run under no chosen level records, without what is switched off.
-/

namespace ModuleLint

/-- No known kind is off by itself. -/
lemma FindingKind.defaultLevel_known {kind : FindingKind} (h : kind ∈ known) :
    kind.defaultLevel ≠ .off := by
  have levels : ∀ k ∈ known, k.defaultLevel ≠ .off := by decide
  exact levels kind h

/-! ### Known kinds -/

namespace CheckState

variable {s : CheckState} {n : Node}

/-- All reports so far are of known kinds. -/
def Known (s : CheckState) : Prop := ∀ r ∈ s.reports, r.kind ∈ FindingKind.known

lemma Known.tell (h : s.Known) (notice : CheckNotice) (other : ∀ r, notice ≠ .found r) :
    (s.tell notice).Known := by
  have same : (s.tell notice).reports = s.reports := by
    cases notice with
    | found r => exact absurd rfl (other r)
    | _ => simp [CheckState.tell, reports]
  unfold Known
  rw [same]
  exact h

lemma Known.report (h : s.Known) {kind : FindingKind} (hk : kind ∈ FindingKind.known) (n : Node) :
    (s.report kind n).Known := by
  intro r hr
  rw [reports_report, List.mem_append, List.mem_singleton] at hr
  rcases hr with hr | rfl
  · exact h r hr
  · exact hk

lemma Known.ite {p : Prop} [Decidable p] {t : CheckState} (hs : s.Known) (ht : t.Known) :
    (if p then s else t).Known := by
  split
  · exact hs
  · exact ht

lemma Known.moduleCall (h : s.Known) (call : Node) : (s.moduleCall call).Known := by
  unfold CheckState.moduleCall
  refine .ite (h.report (by simp [FindingKind.known]) call) ?_
  have named (name : Option Bytes) : Known { s with moduleName := name } := h
  exact (named _).tell _ nofun

lemma Known.requireCall (h : s.Known) (ancestors : List Node) (call : Node) :
    (s.requireCall ancestors call).Known := by
  rw [requireCall_eq]
  refine .ite h ?_
  cases Spot.consumer ancestors with
  | none => exact h.report (by simp [FindingKind.known]) call
  | some declaration => exact .ite (h.report (by simp [FindingKind.known]) declaration) h

lemma Known.exportsAssignment (h : s.Known) (assign : Node) :
    (s.exportsAssignment assign).Known := by
  have each (keys : List Node) (s : CheckState) (h : s.Known) :
      (keys.foldl (CheckState.report · .shorthandExports ·) s).Known := by
    induction keys generalizing s with
    | nil => exact h
    | cons key keys ih => exact ih _ (h.report (by simp [FindingKind.known]) key)
  unfold CheckState.exportsAssignment
  cases assign.last? with
  | none => exact h
  | some value => exact .ite (each _ s h) h

lemma Known.visit (h : s.Known) (c : WalkContext) (n : Node) : (s.visit c n).Known := by
  unfold CheckState.visit
  split
  case h_1 =>
    refine .ite (h.moduleCall n) (.ite (h.report (by simp [FindingKind.known]) n) ?_)
    exact .ite (h.requireCall _ n) h
  case h_2 => exact .ite (h.exportsAssignment n) h
  case h_3 | h_4 => exact .ite (h.report (by simp [FindingKind.known]) n) h
  case h_5 => exact .ite (h.report (by simp [FindingKind.known]) n) h
  case h_6 => exact h
  case h_7 => exact h

lemma Known.enters (h : s.Known) (isModuleFile : Node → Bool) (n : Node) :
    (CheckState.enters isModuleFile n s).2.Known := by
  unfold CheckState.enters
  split
  · exact h.tell _ nofun
  · exact h

/-- **The rules report known kinds alone.** -/
lemma known_checkProgram (isModuleFile : Node → Bool) (hasImportPass : Bool) (root : Spot) :
    (start.checkProgram isModuleFile hasImportPass root).Known := by
  have fresh : start.Known := fun r hr => absurd hr List.not_mem_nil
  have walked := (moduleVisitor isModuleFile).walk_keeps (P := Known)
    (fun _ n s h => h.enters isModuleFile n) (fun c n s h => h.visit c n)
    (.start (root.above.map (·.1))) root.node
    (fresh.tell (.started root.node.children.length) nofun)
  unfold checkProgram
  exact .ite (walked.tell _ nofun) walked

end CheckState

/-! ### Chosen levels -/

namespace Collector

/-- The level that was chosen last for a key, if any was. -/
def chosen (choices : List (Bytes × CheckLevel)) (key : Bytes) : Option CheckLevel :=
  choices.reverse.lookup key

/-- The level that findings of a kind are recorded at: the one last chosen for its key, or else the
kind's own; warnings are raised to errors if asked. -/
def recordedLevel (choices : List (Bytes × CheckLevel)) (warningsAsErrors : Bool)
    (kind : FindingKind) : CheckLevel :=
  ((chosen choices kind.key).getD kind.defaultLevel).raised warningsAsErrors

/-- The collector that levels are chosen for, one after another. -/
def ofChoices (choices : List (Bytes × CheckLevel)) (warningsAsErrors : Bool) : Collector :=
  choices.foldl (fun c choice => c.setLevel choice.1 choice.2) { empty with warningsAsErrors }

lemma ofChoices_eq (choices : List (Bytes × CheckLevel)) (warningsAsErrors : Bool) :
    ofChoices choices warningsAsErrors = ⟨choices.reverse, warningsAsErrors, []⟩ := by
  have from_ (c : Collector) : choices.foldl (fun c choice => c.setLevel choice.1 choice.2) c =
      { c with levels := choices.reverse ++ c.levels } := by
    induction choices generalizing c with
    | nil => rfl
    | cons choice choices ih =>
      rw [List.foldl_cons, ih, List.reverse_cons, List.append_assoc]
      rfl
  unfold ofChoices
  rw [from_]
  change Collector.mk (choices.reverse ++ []) warningsAsErrors [] = _
  rw [List.append_nil]

variable {isModuleFile : Node → Bool} {hasImportPass : Bool}

lemma findings_checked {c : Collector} (fresh : c.findings = []) (root : Node) :
    (c.checked isModuleFile hasImportPass root).findings =
      (CheckState.start.checkProgram isModuleFile hasImportPass (.root root)).reports.filterMap
        c.finding? := by
  unfold checked
  dsimp only
  rw [CheckRun.collector_notices]
  change c.findings ++ _ = _
  rw [fresh, List.nil_append]
  rfl

/-- What a report becomes under chosen levels, told by what it becomes under none. -/
lemma finding?_chosen (choices : List (Bytes × CheckLevel)) (warningsAsErrors : Bool) {r : Report}
    (known : r.kind ∈ FindingKind.known) :
    (ofChoices choices warningsAsErrors).finding? r =
      ((empty.finding? r).filter fun f => chosen choices f.kind.key ≠ some .off).map fun f =>
        { f with level := recordedLevel choices warningsAsErrors f.kind } := by
  have shown := FindingKind.defaultLevel_known known
  have alone : empty.finding? r = some ⟨r.kind, r.kind.defaultLevel.raised false, r.span⟩ :=
    if_neg shown
  rw [alone, ofChoices_eq, Option.filter_some]
  unfold finding?
  change (if (chosen choices r.kind.key).getD r.kind.defaultLevel = .off then none
    else some (Finding.mk r.kind (recordedLevel choices warningsAsErrors r.kind) r.span)) = _
  cases chosen choices r.kind.key with
  | none => simp [shown]
  | some level =>
    by_cases off : level = .off
    · simp [off]
    · simp [off]

/-- **Changing levels neither hides nor adds another finding.** A program is reported under chosen
levels as under none, in the same order and at the same places, without the kinds that are switched
off; each finding that is left has the level last chosen for its key, or else its kind's own, and
warnings are raised to errors if asked. -/
theorem findings_of_levels (isModuleFile : Node → Bool) (hasImportPass : Bool)
    (choices : List (Bytes × CheckLevel)) (warningsAsErrors : Bool) (root : Node) :
    ((ofChoices choices warningsAsErrors).checked isModuleFile hasImportPass root).findings =
      ((empty.checked isModuleFile hasImportPass root).findings.filter fun f =>
        chosen choices f.kind.key ≠ some .off).map fun f =>
          { f with level := recordedLevel choices warningsAsErrors f.kind } := by
  have fresh : (ofChoices choices warningsAsErrors).findings = [] := by rw [ofChoices_eq]
  rw [findings_checked fresh, findings_checked rfl, List.filter_filterMap, List.map_filterMap]
  refine List.filterMap_congr fun r hr => ?_
  have known := CheckState.known_checkProgram isModuleFile hasImportPass (.root root) r hr
  exact finding?_chosen choices warningsAsErrors known

end Collector

end ModuleLint
