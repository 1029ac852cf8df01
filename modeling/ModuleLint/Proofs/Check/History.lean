import Mathlib.Data.List.Induction
import ModuleLint.Proofs.Check.Levels

/-!
What a collector holds after any history of requests.

A history alone says which reports were made since findings were last dropped, and at which level
each of them stood when it was made. The collector holds these and no others: levels that are
chosen later change none of them, and sorting only moves them.
-/

namespace ModuleLint.Collector

/-- What a collector can be asked for. -/
inductive Request
  | report (r : Report)
  | setLevel (key : Bytes) (level : CheckLevel)
  | raiseWarnings (enabled : Bool)
  | sort
  | clear
  deriving DecidableEq, Repr

/-- The collector with a request carried out. -/
def perform (c : Collector) : Request → Collector
  | .report r => c.report r
  | .setLevel key level => c.setLevel key level
  | .raiseWarnings enabled => { c with warningsAsErrors := enabled }
  | .sort => c.sort
  | .clear => c.clear

/-- A new collector after a history of requests, the earliest first. -/
def after (history : List Request) : Collector := history.foldl perform empty

/-! ### What a history says -/

namespace Request

def choice? : Request → Option (Bytes × CheckLevel)
  | .setLevel key level => some (key, level)
  | _ => none

def raising? : Request → Option Bool
  | .raiseWarnings enabled => some enabled
  | _ => none

def report? : Request → Option Report
  | .report r => some r
  | _ => none

end Request

/-- Whether warnings are raised to errors after a history: as it was asked last. -/
def raisesAfter (history : List Request) : Bool :=
  (history.filterMap Request.raising?).getLast?.getD false

/-- The level that a kind is recorded at after a history. -/
def levelAfter (history : List Request) (kind : FindingKind) : CheckLevel :=
  recordedLevel (history.filterMap Request.choice?) (raisesAfter history) kind

/-- What a report becomes if it is made after a history. -/
def madeAfter (history : List Request) (r : Report) : Option Finding :=
  if levelAfter history r.kind = .off then none
  else some ⟨r.kind, levelAfter history r.kind, r.span⟩

/-- What the request with a number leaves behind at the end of a history: the finding that it makes
if it is a report, unless findings are dropped after it. -/
def leftBy (history : List Request) (i : Nat) : Option Finding :=
  if .clear ∈ history.drop i then none
  else (history[i]?.bind Request.report?).bind (madeAfter (history.take i))

/-- The findings that a history leaves behind, in the order in which they are made. -/
def leftAfter (history : List Request) : List Finding :=
  (List.range history.length).filterMap (leftBy history)

/-! ### One more request -/

section Step

variable {history : List Request} {request : Request} {i : Nat}

@[simp] lemma after_nil : after [] = empty := rfl

@[simp] lemma after_append_singleton :
    after (history ++ [request]) = (after history).perform request := by
  simp [after, List.foldl_append]

/-- A request leaves behind what it did unless the one behind it drops findings. -/
lemma leftBy_append (h : i < history.length) :
    leftBy (history ++ [request]) i = if request = .clear then none else leftBy history i := by
  unfold leftBy
  rw [List.getElem?_append_left h, List.take_append_of_le_length (Nat.le_of_lt h),
    List.drop_append_of_le_length (Nat.le_of_lt h)]
  by_cases last : request = .clear
  · have cleared : .clear ∈ history.drop i ++ [request] := by simp [last]
    rw [if_pos cleared, if_pos last]
  · have same : .clear ∈ history.drop i ++ [request] ↔ .clear ∈ history.drop i := by
      rw [List.mem_append, List.mem_singleton, or_iff_left (Ne.symm last)]
    rw [if_neg last]
    exact if_congr same rfl rfl

lemma leftBy_last :
    leftBy (history ++ [request]) history.length = request.report?.bind (madeAfter history) := by
  unfold leftBy
  rw [List.drop_left, List.take_left, List.getElem?_concat_length]
  by_cases last : .clear ∈ [request]
  · rw [if_pos last, ← List.mem_singleton.mp last]
    rfl
  · rw [if_neg last]
    rfl

lemma leftAfter_append_singleton :
    leftAfter (history ++ [request]) =
      (if request = .clear then [] else leftAfter history) ++
        (request.report?.bind (madeAfter history)).toList := by
  have before : (List.range history.length).filterMap (leftBy (history ++ [request])) =
      if request = .clear then [] else leftAfter history := by
    have each : ∀ i ∈ List.range history.length, leftBy (history ++ [request]) i =
        if request = .clear then none else leftBy history i :=
      fun i hi => leftBy_append (List.mem_range.mp hi)
    rw [List.filterMap_congr each]
    split
    · exact List.filterMap_eq_nil_iff.mpr fun _ _ => rfl
    · rfl
  unfold leftAfter at before ⊢
  rw [List.length_append, List.length_singleton, List.range_succ, List.filterMap_append, before]
  congr 1
  rw [List.filterMap_cons, leftBy_last, List.filterMap_nil]
  cases request.report?.bind (madeAfter history) <;> rfl

end Step

/-! ### Whole histories -/

/-- The levels in force are those that the history chooses. -/
lemma settings_after (history : List Request) :
    (after history).levels = (history.filterMap Request.choice?).reverse ∧
      (after history).warningsAsErrors = raisesAfter history := by
  induction history using List.reverseRecOn with
  | nil => exact ⟨rfl, rfl⟩
  | append_singleton history request ih =>
    obtain ⟨levels, raises⟩ := ih
    unfold raisesAfter at raises ⊢
    rw [after_append_singleton, List.filterMap_append, List.filterMap_append]
    cases request with
    | setLevel key level => simp [perform, setLevel, Request.choice?, Request.raising?, *]
    | raiseWarnings enabled => simp [perform, Request.choice?, Request.raising?, *]
    | report r =>
      rw [perform, report_eq]
      simp [add, Request.choice?, Request.raising?, *]
    | sort => simp [perform, sort, Request.choice?, Request.raising?, *]
    | clear => simp [perform, clear, Request.choice?, Request.raising?, *]

lemma raised_eq_off {level : CheckLevel} {warningsAsErrors : Bool} :
    level.raised warningsAsErrors = .off ↔ level = .off := by
  cases level <;> cases warningsAsErrors <;> decide

/-- What a report becomes is decided by the history before it alone. -/
lemma finding?_after (history : List Request) (r : Report) :
    (after history).finding? r = madeAfter history r := by
  obtain ⟨levels, raises⟩ := settings_after history
  have level : ((after history).levelFor r.kind).raised (after history).warningsAsErrors =
      levelAfter history r.kind := by
    rw [levelFor, levels, raises]
    rfl
  unfold finding? madeAfter
  rw [level]
  refine if_congr ?_ rfl rfl
  rw [← level]
  exact raised_eq_off.symm

/-- A collector holds what its history leaves behind, in some order. -/
lemma findings_after (history : List Request) :
    (after history).findings.Perm (leftAfter history) := by
  induction history using List.reverseRecOn with
  | nil => exact .refl _
  | append_singleton history request ih =>
    rw [after_append_singleton, leftAfter_append_singleton]
    cases request with
    | report r =>
      rw [perform, report_eq, finding?_after]
      exact ih.append_right _
    | sort =>
      refine ((after history).findings.mergeSort_perm precedes).trans ?_
      simpa [Request.report?] using ih
    | clear => exact .refl _
    | setLevel | raiseWarnings => simpa [perform, setLevel, Request.report?] using ih

lemma level_of_mem_leftAfter {history : List Request} {f : Finding} (h : f ∈ leftAfter history) :
    f.level ≠ .off := by
  obtain ⟨i, -, left⟩ := List.mem_filterMap.mp h
  unfold leftBy at left
  split at left
  · cases left
  obtain ⟨r, -, made⟩ := Option.bind_eq_some_iff.mp left
  unfold madeAfter at made
  split at made
  · cases made
  case isFalse shown =>
    cases made
    exact shown

/-- Findings of which none is off are errors and warnings. -/
lemma count_add_count {c : Collector} (shown : ∀ f ∈ c.findings, f.level ≠ .off) :
    c.count .error + c.count .warning = c.findings.length := by
  have others : c.findings.countP (·.level == .warning) =
      c.findings.countP fun f => decide ¬ (f.level == .error) := by
    refine List.countP_congr fun f hf => ?_
    have off := shown f hf
    cases hl : f.level with
    | off => exact absurd hl off
    | warning => decide
    | error => decide
  unfold count
  rw [others]
  exact (List.length_eq_countP_add_countP _).symm

/-- **The records of a collector are consistent after any history.** No finding is off, so errors
and warnings are all there are; and the findings are, in some order, the reports made since findings
were last dropped, each at the level that its kind had when it was made, without those that were off
then. -/
theorem records_consistent (history : List Request) :
    (∀ f ∈ (after history).findings, f.level ≠ .off) ∧
      (after history).count .error + (after history).count .warning =
        (after history).findings.length ∧
      (after history).findings.Perm (leftAfter history) := by
  have left := findings_after history
  have shown : ∀ f ∈ (after history).findings, f.level ≠ .off :=
    fun f hf => level_of_mem_leftAfter (left.mem_iff.mp hf)
  exact ⟨shown, count_add_count shown, left⟩

end ModuleLint.Collector
