import ModuleLint.Check.Run
import ModuleLint.Proofs.Check.Origin

/-!
The sorted report does not depend on the order of the files.

Findings at one place come from one script, so they stand in the same order however the scripts are
arranged. The sort is stable, and lists that are sorted by place and agree at each place are equal.
-/

namespace ModuleLint

/-! ### Stable sorting by a key -/

section Stable

variable {α κ : Type} [DecidableEq κ] {key : α → κ} {le : α → α → Bool} {l l' : List α}

/-- Sorted lists with the same items, in the same order, at each key are the same. -/
lemma eq_of_sorted_of_filter_eq (one : ∀ a b, le a b → le b a → key a = key b)
    (hl : l.Pairwise fun a b => le a b) (hl' : l'.Pairwise fun a b => le a b)
    (same : ∀ k, l.filter (key · = k) = l'.filter (key · = k)) : l = l' := by
  induction l generalizing l' with
  | nil =>
    cases l' with
    | nil => rfl
    | cons b l' => simpa using same (key b)
  | cons a l ih =>
    cases l' with
    | nil => simpa using same (key a)
    | cons b l' =>
      have members (c : α) : c ∈ a :: l ↔ c ∈ b :: l' := by
        have atKey : c ∈ (a :: l).filter (key · = key c) ↔
            c ∈ (b :: l').filter (key · = key c) := by
          rw [same]
        simpa only [List.mem_filter, decide_true, and_true] using atKey
      have ab : key a = key b := by
        rcases List.mem_cons.mp ((members a).mp List.mem_cons_self) with rfl | ha
        · rfl
        rcases List.mem_cons.mp ((members b).mpr List.mem_cons_self) with rfl | hb
        · rfl
        · exact one a b ((List.pairwise_cons.mp hl).1 b hb) ((List.pairwise_cons.mp hl').1 a ha)
      have heads := same (key b)
      rw [List.filter_cons_of_pos (by simpa using ab), List.filter_cons_of_pos (by simp)] at heads
      obtain ⟨rfl, -⟩ := List.cons.inj heads
      rw [ih hl.of_cons hl'.of_cons fun k => ?_]
      have tails := same k
      rw [List.filter_cons, List.filter_cons] at tails
      split at tails
      · exact (List.cons.inj tails).2
      · exact tails

variable (trans : ∀ a b c, le a b → le b c → le a c) (total : ∀ a b, le a b || le b a)

include trans total in
/-- Sorting keeps the order of items of the same key. -/
lemma filter_mergeSort (refl : ∀ a b, key a = key b → le a b) (k : κ) :
    (l.mergeSort le).filter (key · = k) = l.filter (key · = k) := by
  have equal : ∀ a ∈ l.filter (key · = k), key a = k := fun a ha => by
    simpa using List.of_mem_filter ha
  have sorted : (l.filter (key · = k)).Pairwise fun a b => le a b :=
    List.pairwise_of_forall_mem_list fun a ha b hb =>
      refl a b ((equal a ha).trans (equal b hb).symm)
  have kept := List.sublist_mergeSort trans total sorted List.filter_sublist
  have inside := kept.filter (key · = k)
  rw [List.filter_filter] at inside
  simp only [Bool.and_self] at inside
  refine (inside.eq_of_length ?_).symm
  exact ((List.mergeSort_perm l le).filter _).length_eq.symm

end Stable

/-- Parts of which at most one is not empty may be put together in any order. -/
lemma flatMap_eq_of_perm {α β : Type} {f : α → List β} {l l' : List α} (h : l.Perm l')
    (alone : l.Pairwise fun a b => f a = [] ∨ f b = []) : l.flatMap f = l'.flatMap f := by
  induction h with
  | nil => rfl
  | cons a _ ih =>
    rw [List.flatMap_cons, List.flatMap_cons, ih alone.of_cons]
  | swap a b l =>
    have one := (List.pairwise_cons.mp alone).1 a List.mem_cons_self
    simp only [List.flatMap_cons]
    rcases one with h | h <;> simp [h]
  | @trans l l' l'' first _ ih ih' =>
    have alone' := (first.pairwise_iff fun {x y} (h : f x = [] ∨ f y = []) => h.symm).mp alone
    exact (ih alone).trans (ih' alone')

/-! ### The order of findings -/

namespace Finding

/-- Where a finding starts: its file and its offset there. -/
def place (f : Finding) : Bytes × UInt32 := (f.span.file, f.span.start.offset)

end Finding

namespace Collector

variable {a b c : Finding}

lemma precedes_iff : precedes a b ↔
    a.span.file < b.span.file ∨
      a.span.file = b.span.file ∧ a.span.start.offset ≤ b.span.start.offset := by
  simp [precedes]

lemma precedes_trans (a b c : Finding) (hab : precedes a b) (hbc : precedes b c) :
    precedes a c := by
  rw [precedes_iff] at hab hbc ⊢
  rcases hab with hab | ⟨hab, oab⟩
  · rcases hbc with hbc | ⟨hbc, -⟩
    · exact .inl (List.lt_trans hab hbc)
    · exact .inl (hbc ▸ hab)
  · rcases hbc with hbc | ⟨hbc, obc⟩
    · exact .inl (hab ▸ hbc)
    · exact .inr ⟨hab.trans hbc, UInt32.le_trans oab obc⟩

lemma file_trichotomy (x y : Bytes) : x < y ∨ x = y ∨ y < x := by
  by_cases hxy : x < y
  · exact .inl hxy
  by_cases hyx : y < x
  · exact .inr (.inr hyx)
  · exact .inr (.inl (List.le_antisymm hyx hxy))

lemma precedes_total (a b : Finding) : precedes a b || precedes b a := by
  rw [Bool.or_eq_true, precedes_iff, precedes_iff]
  rcases file_trichotomy a.span.file b.span.file with h | h | h
  · exact .inl (.inl h)
  · rcases UInt32.le_total a.span.start.offset b.span.start.offset with o | o
    · exact .inl (.inr ⟨h, o⟩)
    · exact .inr (.inr ⟨h.symm, o⟩)
  · exact .inr (.inl h)

lemma precedes_of_place_eq (a b : Finding) (h : a.place = b.place) : precedes a b := by
  obtain ⟨file, offset⟩ := Prod.ext_iff.mp h
  exact precedes_iff.mpr (.inr ⟨file, UInt32.le_of_eq offset⟩)

/-- Findings that precede each other start at one place. -/
lemma place_eq_of_precedes (a b : Finding) (hab : precedes a b) (hba : precedes b a) :
    a.place = b.place := by
  rw [precedes_iff] at hab hba
  rcases hab with hab | ⟨hab, oab⟩
  · rcases hba with hba | ⟨hba, -⟩
    · exact absurd hba (List.lt_asymm hab)
    · exact absurd (hba ▸ hab) (List.lt_irrefl _)
  · rcases hba with hba | ⟨-, oba⟩
    · exact absurd (hab ▸ hba) (List.lt_irrefl _)
    · exact Prod.ext hab (UInt32.le_antisymm oab oba)

end Collector

/-! ### What is collected -/

namespace Collector

variable (c : Collector)

/-- The collector with some more findings. -/
def add (l : List Finding) : Collector := { c with findings := c.findings ++ l }

lemma add_nil : c.add [] = c := by
  simp [add]

lemma add_add (l l' : List Finding) : (c.add l).add l' = c.add (l ++ l') := by
  simp [add]

/-- The finding that a report becomes, unless its level is off. -/
def finding? (r : Report) : Option Finding :=
  if c.levelFor r.kind = .off then none
  else some ⟨r.kind, (c.levelFor r.kind).raised c.warningsAsErrors, r.span⟩

lemma report_eq (r : Report) : c.report r = c.add (c.finding? r).toList := by
  unfold report finding?
  split
  · exact c.add_nil.symm
  · rfl

lemma finding?_span {r : Report} {f : Finding} (h : c.finding? r = some f) : f.span = r.span := by
  unfold finding? at h
  split at h
  · cases h
  · cases h
    rfl

/-- The findings on one script. -/
def findingsOn (isModuleFile : Node → Bool) (script : Node) : List Finding :=
  (CheckState.reports ⟨none, CheckState.told isModuleFile script⟩).filterMap c.finding?

/-- The collector after a checker ran over a program. -/
def checked (isModuleFile : Node → Bool) (hasImportPass : Bool) (root : Node) : Collector :=
  let told := (CheckState.start.checkProgram isModuleFile hasImportPass (.root root)).notices
  ((CheckRun.start c).notices told).collector

end Collector

lemma CheckRun.collector_notices (r : CheckRun) (l : List CheckNotice) :
    (r.notices l).collector =
      r.collector.add ((CheckState.reports ⟨none, l⟩).filterMap r.collector.finding?) := by
  induction l generalizing r with
  | nil => exact r.collector.add_nil.symm
  | cons n l ih =>
    change ((r.notice n).notices l).collector = _
    rw [ih]
    cases n with
    | found report =>
      have step : (r.notice (.found report)).collector =
          r.collector.add (r.collector.finding? report).toList := Collector.report_eq _ report
      have told : CheckState.reports ⟨none, .found report :: l⟩ =
          report :: CheckState.reports ⟨none, l⟩ := rfl
      have levels (more : List Finding) : (r.collector.add more).finding? = r.collector.finding? :=
        rfl
      rw [step, told, levels, Collector.add_add, List.filterMap_cons]
      cases r.collector.finding? report <;> rfl
    | _ => rfl

namespace Collector

variable {c : Collector} {isModuleFile : Node → Bool} {hasImportPass : Bool}

/-- A program of scripts yields the findings on each of them. -/
lemma checked_eq {scripts : List Node} (hl : ∀ n ∈ scripts, n.kind = .script) :
    c.checked isModuleFile hasImportPass (program scripts) =
      c.add (scripts.flatMap (c.findingsOn isModuleFile)) := by
  have told := @CheckState.checkProgram_eq .start isModuleFile hasImportPass (program scripts) rfl
    hl rfl
  have reports : CheckState.reports
        (CheckState.start.checkProgram isModuleFile hasImportPass (.root (program scripts))) =
      scripts.flatMap fun n => CheckState.reports ⟨none, CheckState.told isModuleFile n⟩ :=
    (congrArg CheckState.reports told).trans
      (@CheckCall.reports_tells isModuleFile hasImportPass (.program (program scripts)))
  unfold checked
  dsimp only
  rw [CheckRun.collector_notices]
  change c.add ((CheckState.reports (CheckState.start.checkProgram _ _ _)).filterMap _) = _
  rw [reports, List.filterMap_flatMap]
  rfl

lemma findingsOn_inFile {s : Source} {n : Node} (h : s.script = .ok n) :
    ∀ f ∈ c.findingsOn isModuleFile n, f.span.file = s.name := by
  intro f hf
  obtain ⟨r, hr, hf⟩ := List.mem_filterMap.mp hf
  rw [c.finding?_span hf]
  exact s.reports_inFile h isModuleFile r hr

lemma findingsOn_elsewhere {s : Source} {n : Node} (h : s.script = .ok n)
    {place : Bytes × UInt32} (other : s.name ≠ place.1) :
    (c.findingsOn isModuleFile n).filter (·.place = place) = [] := by
  refine List.filter_eq_nil_iff.mpr fun f hf => ?_
  have file := findingsOn_inFile h f hf
  rw [decide_eq_true_eq]
  rintro rfl
  exact other file.symm

/-- Scripts from different files have no findings at one place. -/
lemma findingsOn_alone {files : List (Source × Node)}
    (parsed : ∀ f ∈ files, f.1.script = .ok f.2) (distinct : (files.map (·.1.name)).Nodup)
    (place : Bytes × UInt32) :
    (files.map (·.2)).Pairwise fun a b =>
      (c.findingsOn isModuleFile a).filter (·.place = place) = [] ∨
        (c.findingsOn isModuleFile b).filter (·.place = place) = [] := by
  refine List.pairwise_map.mpr ((List.pairwise_map.mp distinct).imp_of_mem ?_)
  intro a b ha hb names
  by_cases here : a.1.name = place.1
  · exact .inr (findingsOn_elsewhere (parsed b hb) fun there => names (here.trans there.symm))
  · exact .inl (findingsOn_elsewhere (parsed a ha) here)

lemma filter_sort (c : Collector) (place : Bytes × UInt32) :
    c.sort.findings.filter (·.place = place) = c.findings.filter (·.place = place) :=
  filter_mergeSort precedes_trans precedes_total precedes_of_place_eq place

lemma sort_sorted (c : Collector) : c.sort.findings.Pairwise fun a b => precedes a b :=
  List.pairwise_mergeSort precedes_trans precedes_total c.findings

/-- Collectors that agree but for the order of findings of different places. -/
lemma sort_congr {c c' : Collector} (levels : c.levels = c'.levels)
    (raised : c.warningsAsErrors = c'.warningsAsErrors)
    (same : ∀ place, c.findings.filter (·.place = place) = c'.findings.filter (·.place = place)) :
    c.sort = c'.sort := by
  have findings : c.sort.findings = c'.sort.findings := by
    refine eq_of_sorted_of_filter_eq place_eq_of_precedes c.sort_sorted c'.sort_sorted fun k => ?_
    rw [filter_sort, filter_sort, same]
  calc c.sort = ⟨c.levels, c.warningsAsErrors, c.sort.findings⟩ := rfl
    _ = ⟨c'.levels, c'.warningsAsErrors, c'.sort.findings⟩ := by rw [levels, raised, findings]
    _ = c'.sort := rfl

/-- **The sorted report does not depend on the order of the files.** Scripts from files of different
names are reported the same in each order, by file and then by offset. Sorting loses and adds
nothing, and leaves findings at one place in the order in which they were reported. -/
theorem sorted_report (isModuleFile : Node → Bool) (hasImportPass : Bool) {c : Collector}
    (fresh : c.findings = []) {files : List (Source × Node)}
    (parsed : ∀ f ∈ files, f.1.script = .ok f.2) (distinct : (files.map (·.1.name)).Nodup)
    {scripts : List Node} (order : scripts.Perm (files.map (·.2))) :
    let reported := c.checked isModuleFile hasImportPass (program scripts)
    reported.sort = (c.checked isModuleFile hasImportPass (program (files.map (·.2)))).sort ∧
    reported.sort.findings.Perm reported.findings ∧
    reported.sort.findings.Pairwise (fun a b => a.span.file < b.span.file ∨
      a.span.file = b.span.file ∧ a.span.start.offset ≤ b.span.start.offset) ∧
    (∀ place, reported.sort.findings.filter (·.place = place) =
      reported.findings.filter (·.place = place)) ∧
    reported.sort.sort = reported.sort := by
  intro reported
  have kinds : ∀ n ∈ files.map (·.2), n.kind = .script := by
    intro n hn
    obtain ⟨f, hf, rfl⟩ := List.mem_map.mp hn
    exact (Grammar.script_as (f.1.script_eq_ok (parsed f hf))).1
  have kinds' : ∀ n ∈ scripts, n.kind = .script := fun n hn => kinds n (order.mem_iff.mp hn)
  have noneYet (l : List Finding) : (c.add l).findings = l := by
    rw [add, fresh, List.nil_append]
  refine ⟨?_, List.mergeSort_perm _ _, ?_, reported.filter_sort, ?_⟩
  · unfold reported
    rw [checked_eq kinds, checked_eq kinds']
    refine sort_congr rfl rfl fun place => ?_
    rw [noneYet, noneYet, List.filter_flatMap, List.filter_flatMap]
    have alone := @findingsOn_alone c isModuleFile files parsed distinct place
    exact (flatMap_eq_of_perm order.symm alone).symm
  · exact reported.sort_sorted.imp fun h => precedes_iff.mp h
  · have again : reported.sort.findings.mergeSort precedes = reported.sort.findings :=
      List.mergeSort_of_pairwise reported.sort_sorted
    exact congrArg (fun l => { reported with findings := l }) again

/-- Files `b` and `a`, each with a `this` of its own, are reported in the order of their names. -/
theorem sorted_report_two :
    let source (name : String) : Source := ⟨ascii name, ascii "this"⟩
    let script (s : Source) : Node := s.script.toOption.getD default
    let a := source "a"
    let b := source "b"
    (∀ f ∈ [(b, script b), (a, script a)], f.1.script = .ok f.2) ∧
      ([(b, script b), (a, script a)].map (·.1.name)).Nodup ∧
      (empty.checked (fun _ => true) true (program [script a, script b])).sort =
        (empty.checked (fun _ => true) true (program [script b, script a])).sort ∧
      (empty.checked (fun _ => true) true (program [script b, script a])).sort.findings.map
        Finding.place = [(ascii "a", 0), (ascii "b", 0)] := by
  intro source script a b
  have ofOk {s : Source} (h : s.script.isOk) : s.script = .ok (script s) := by
    unfold script
    cases hs : s.script with
    | ok n => rfl
    | error f =>
      rw [hs] at h
      cases h
  have parsed : ∀ f ∈ [(b, script b), (a, script a)], f.1.script = .ok f.2 := by
    refine List.forall_mem_cons.mpr ⟨ofOk ?_, List.forall_mem_singleton.mpr (ofOk ?_)⟩
    · decide +kernel
    · decide +kernel
  have distinct : ([(b, script b), (a, script a)].map (·.1.name)).Nodup := by decide
  have same : (empty.checked (fun _ => true) true (program [script a, script b])).sort =
      (empty.checked (fun _ => true) true (program [script b, script a])).sort :=
    (@sorted_report (fun _ => true) true empty rfl _ parsed distinct _ (.swap _ _ _)).1
  have ordered : (empty.checked (fun _ => true) true
      (program [script a, script b])).findings.Pairwise fun a b => precedes a b := by
    decide +kernel
  refine ⟨parsed, distinct, same, ?_⟩
  rw [← same, sort, List.mergeSort_of_pairwise ordered]
  decide +kernel

end Collector

end ModuleLint
