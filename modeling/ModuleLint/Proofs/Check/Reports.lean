import ModuleLint.Proofs.Check.Independence
import ModuleLint.Proofs.Grammar.ScriptShape

/-!
A checker reports what is expected, place by place.

The name that a checker has in mind is the one declared at the places it has been to. So what it
reports at the next place is what the rules report there after those.
-/

namespace ModuleLint

variable {s : CheckState} {t : Spot} {before : List Spot} {n : Node}

/-! ### Calls -/

lemma Node.kind_of_calls {callee : Bytes} (h : n.calls callee) : n.kind = .call := by
  unfold calls at h
  exact beq_iff_eq.mp (Bool.and_eq_true_iff.mp h).1

lemma Node.calls_unique {a b : Bytes} (ha : n.calls a) (hb : n.calls b) : a = b := by
  unfold calls spells at ha hb
  cases hf : n.first? with
  | none => simp [hf] at ha
  | some callee =>
    simp only [hf, Option.any_some, Bool.and_eq_true, beq_iff_eq] at ha hb
    exact Option.some_inj.mp (ha.2.symm.trans hb.2)

lemma Spot.declaredName_append (before : List Spot) (t : Spot) :
    declaredName (before ++ [t]) =
      (declaredName before).or (if t.callsModule then some t.givenName else none) := by
  unfold declaredName
  rw [List.find?_append]
  cases before.find? callsModule with
  | some u => rfl
  | none =>
    rw [List.find?_singleton]
    cases t.callsModule <;> rfl

lemma Spot.any_callsModule (before : List Spot) :
    before.any callsModule = (declaredName before).isSome := by
  unfold declaredName
  rw [Option.isSome_map, List.isSome_find?]

namespace CheckState

/-! ### Reports -/

lemma reports_tell_found (s : CheckState) (r : Report) :
    (s.tell (.found r)).reports = s.reports ++ [r] := by
  simp [tell, reports]

@[simp] lemma reports_report (s : CheckState) (kind : FindingKind) (n : Node) :
    (s.report kind n).reports = s.reports ++ [⟨kind, n.span⟩] := reports_tell_found s _

/-- The second state has told some more reports and has the same name in mind. -/
def Adds (s : CheckState) (l : List Report) (s' : CheckState) : Prop :=
  s'.moduleName = s.moduleName ∧ s'.reports = s.reports ++ l

lemma adds_nil : s.Adds [] s := ⟨rfl, (List.append_nil _).symm⟩

lemma adds_report {kind : FindingKind} : s.Adds [⟨kind, n.span⟩] (s.report kind n) :=
  ⟨rfl, reports_report s kind n⟩

lemma Adds.trans {s' s'' : CheckState} {l m : List Report} (h : s.Adds l s') (h' : s'.Adds m s'') :
    s.Adds (l ++ m) s'' := by
  refine ⟨h'.1.trans h.1, ?_⟩
  rw [h'.2, h.2, List.append_assoc]

/-! ### Rules -/

lemma requireCall_adds (h : t.node.calls (ascii "goog.require")) :
    s.Adds t.require (s.requireCall t.ancestors t.node) := by
  rw [requireCall_eq, Spot.require]
  by_cases hs : Node.optionIs .exprStmt t.ancestors.head?
  · rw [if_pos hs, if_pos (.inr hs)]
    exact adds_nil
  · rw [if_neg hs, if_neg (by simp [h, hs])]
    cases Spot.consumer t.ancestors with
    | none => exact adds_report
    | some declaration =>
      dsimp only
      split
      · exact adds_report
      · exact adds_nil

lemma exportsAssignment_adds (h : t.node.first?.any (·.spells (ascii "exports")))
    (hk : t.node.kind = .assign) (two : ∃ target value, t.node.children = [target, value]) :
    s.Adds t.shorthands (s.exportsAssignment t.node) := by
  have each (keys : List Node) (s : CheckState) :
      s.Adds (keys.map fun key => ⟨.shorthandExports, key.span⟩)
        (keys.foldl (report · .shorthandExports ·) s) := by
    induction keys generalizing s with
    | nil => exact adds_nil
    | cons key keys ih => exact adds_report.trans (ih _)
  obtain ⟨target, value, hc⟩ := two
  have spells : target.spells (ascii "exports") := by simpa [Node.first?, hc] using h
  have last : t.node.last? = some value := by simp [Node.last?, hc]
  unfold exportsAssignment Spot.shorthands
  simp only [last, hk, hc, spells, true_and]
  split
  · exact each _ s
  · exact adds_nil

lemma propertyAccess_adds (hk : t.node.kind = .getProp)
    (hs : s.moduleName = Spot.declaredName before) :
    s.Adds (t.globalName before) (s.propertyAccess t.ancestors.head? t.node) := by
  unfold propertyAccess Spot.globalName
  rw [hs]
  by_cases hc : (Spot.declaredName before).any t.node.spells ∧
      ¬ Node.optionIs .getProp t.ancestors.head?
  · rw [if_pos hc, if_pos ⟨hk, hc.2, hc.1⟩]
    exact adds_report
  · rw [if_neg hc, if_neg fun h => hc ⟨h.2.2, h.2.1⟩]
    exact adds_nil

lemma isOutsideFunctions_iff (t : Spot) :
    (t.context.visiting t.node).isOutsideFunctions ↔
      ∀ n ∈ t.ancestors, ¬ n.kind.opensFunctionScope := by
  change (t.ancestors.countP (·.kind.opensFunctionScope) == 0) = true ↔ _
  rw [beq_iff_eq, List.countP_eq_zero]

lemma outside_adds {kind : NodeKind} {finding : FindingKind} (hk : t.node.kind = kind) :
    s.Adds (t.outsideFunctions kind finding)
      (if (t.context.visiting t.node).isOutsideFunctions then s.report finding t.node else s) := by
  unfold Spot.outsideFunctions
  by_cases ho : (t.context.visiting t.node).isOutsideFunctions
  · rw [if_pos ho, if_pos ⟨hk, (isOutsideFunctions_iff t).mp ho⟩]
    exact adds_report
  · rw [if_neg ho, if_neg fun h => ho ((isOutsideFunctions_iff t).mpr h.2)]
    exact adds_nil

/-! ### One place -/

lemma name_ne : ascii "goog.module" ≠ ascii "goog.provide" ∧
    ascii "goog.module" ≠ ascii "goog.require" ∧ ascii "goog.provide" ≠ ascii "goog.require" := by
  decide

/-- Calls are told apart by what they call, other nodes by their kinds. -/
lemma expected_call (hk : t.node.kind = .call) :
    t.expected before = t.furtherModule before ++ t.provide ++ t.require := by
  simp [Spot.expected, Spot.shorthands, Spot.outsideFunctions, Spot.globalName, hk]

lemma expected_other (hk : t.node.kind ≠ .call) :
    t.expected before =
      t.shorthands ++ t.outsideFunctions .thisExpr .referencesThis ++
        t.outsideFunctions .throwStmt .usesThrow ++ t.globalName before := by
  have calls (callee : Bytes) : ¬ t.node.calls callee := fun h => hk (Node.kind_of_calls h)
  simp [Spot.expected, Spot.furtherModule, Spot.provide, Spot.require, Spot.callsModule, calls]

/-- The second state has told what is expected at a place, and knows the name declared up to it. -/
def Follows (s : CheckState) (before : List Spot) (t : Spot) (s' : CheckState) : Prop :=
  s'.moduleName = Spot.declaredName (before ++ [t]) ∧ s'.reports = s.reports ++ t.expected before

lemma Adds.follows {s' : CheckState} {l : List Report} (h : s.Adds l s') (hm : ¬ t.callsModule)
    (hs : s.moduleName = Spot.declaredName before) (hl : t.expected before = l) :
    s.Follows before t s' := by
  refine ⟨?_, by rw [hl, h.2]⟩
  rw [h.1, hs, Spot.declaredName_append, if_neg hm, Option.or_none]

lemma moduleCall_follows (hm : t.callsModule) (hs : s.moduleName = Spot.declaredName before) :
    s.Follows before t (s.moduleCall t.node) := by
  have hk := Node.kind_of_calls hm
  have noProvide : ¬ t.node.calls (ascii "goog.provide") :=
    fun h => name_ne.1 (Node.calls_unique hm h)
  have noRequire : ¬ t.node.calls (ascii "goog.require") :=
    fun h => name_ne.2.1 (Node.calls_unique hm h)
  have rest : t.expected before = t.furtherModule before := by
    simp [expected_call hk, Spot.provide, Spot.require, noProvide, noRequire]
  unfold Follows moduleCall
  rw [rest, Spot.furtherModule, Spot.any_callsModule, ← hs, Spot.declaredName_append, ← hs,
    if_pos hm]
  cases hn : s.moduleName with
  | none =>
    refine ⟨?_, by simp [reports, tell]⟩
    change some _ = some _
    unfold Spot.givenName
    cases t.node.second? with
    | none => rfl
    | some argument =>
      rw [Option.filter_some]
      by_cases hl : argument.kind = .stringLit <;> simp [hl]
  | some name => exact ⟨hn, by simp [hm]⟩

lemma call_follows (hk : t.node.kind = .call) (hs : s.moduleName = Spot.declaredName before) :
    s.Follows before t (s.call t.ancestors t.node) := by
  unfold call
  by_cases hm : t.node.calls (ascii "goog.module")
  · rw [if_pos hm]
    exact moduleCall_follows hm hs
  have noFurther : t.furtherModule before = [] := by simp [Spot.furtherModule, Spot.callsModule, hm]
  rw [if_neg hm]
  by_cases hp : t.node.calls (ascii "goog.provide")
  · have noRequire : ¬ t.node.calls (ascii "goog.require") :=
      fun h => name_ne.2.2 (Node.calls_unique hp h)
    rw [if_pos hp]
    refine adds_report.follows hm hs ?_
    simp [expected_call hk, noFurther, Spot.provide, Spot.require, hp, noRequire]
  · have noProvide : t.provide = [] := by simp [Spot.provide, hp]
    have only : t.expected before = t.require := by simp [expected_call hk, noFurther, noProvide]
    rw [if_neg hp]
    by_cases hr : t.node.calls (ascii "goog.require")
    · rw [if_pos hr]
      exact (requireCall_adds hr).follows hm hs only
    · rw [if_neg hr]
      exact adds_nil.follows hm hs (by simp [only, Spot.require, hr])

/-- **A visit reports what is expected** after the places before it. -/
lemma visitAt_follows {isModuleFile : Node → Bool} (hs : s.moduleName = Spot.declaredName before)
    (noScript : t.node.kind ≠ .script)
    (two : t.node.kind = .assign → ∃ target value, t.node.children = [target, value]) :
    s.Follows before t ((moduleVisitor isModuleFile).visitAt t s) := by
  change s.Follows before t (s.visit (t.context.visiting t.node) t.node)
  have noModule (hk : t.node.kind ≠ .call) : ¬ t.callsModule := fun h => hk (Node.kind_of_calls h)
  unfold visit
  split
  case h_1 hk => exact call_follows hk hs
  case h_2 hk =>
    have only : t.expected before = t.shorthands := by
      simp [expected_other, Spot.outsideFunctions, Spot.globalName, hk]
    have noCall : ¬ t.callsModule := noModule (by simp [hk])
    split
    case isTrue he => exact (exportsAssignment_adds he hk (two hk)).follows noCall hs only
    case isFalse he =>
      refine adds_nil.follows noCall hs ?_
      obtain ⟨target, value, hc⟩ := two hk
      have noSpells : ¬ target.spells (ascii "exports") := by simpa [Node.first?, hc] using he
      simp [only, Spot.shorthands, hk, hc, noSpells]
  case h_3 hk =>
    refine (outside_adds hk).follows (noModule (by simp [hk])) hs ?_
    simp [expected_other, Spot.shorthands, Spot.outsideFunctions, Spot.globalName, hk]
  case h_4 hk =>
    refine (outside_adds hk).follows (noModule (by simp [hk])) hs ?_
    simp [expected_other, Spot.shorthands, Spot.outsideFunctions, Spot.globalName, hk]
  case h_5 hk =>
    refine (propertyAccess_adds hk hs).follows (noModule (by simp [hk])) hs ?_
    simp [expected_other, Spot.shorthands, Spot.outsideFunctions, hk]
  case h_6 hk => exact absurd hk noScript
  case h_7 noCall noAssign noThis noThrow noProp _ =>
    refine adds_nil.follows (noModule noCall) hs ?_
    have noShorthands : t.shorthands = [] := by
      unfold Spot.shorthands
      split
      · exact absurd ‹_› noAssign
      · rfl
    have noKind : t.node.kind ≠ .thisExpr ∧ t.node.kind ≠ .throwStmt ∧ t.node.kind ≠ .getProp :=
      ⟨noThis, noThrow, noProp⟩
    simp [expected_other noCall, noShorthands, Spot.outsideFunctions, Spot.globalName, noKind]

/-! ### Whole scripts -/

section Scripts

variable {isModuleFile : Node → Bool}

/-- Along a part of an order the reports add up, each expected after the places before it. -/
lemma foldl_reports {order l after : List Spot} (ho : order = before ++ l ++ after)
    (noScript : ∀ t ∈ l, t.node.kind ≠ .script)
    (two : ∀ t ∈ l, t.node.kind = .assign → ∃ target value, t.node.children = [target, value])
    (hs : s.moduleName = Spot.declaredName before) :
    (l.foldl (fun s t => (moduleVisitor isModuleFile).visitAt t s) s).reports =
      s.reports ++ (l.zipIdx before.length).flatMap fun (t, i) => t.expected (order.take i) := by
  induction l generalizing before s with
  | nil => simp
  | cons t l ih =>
    obtain ⟨name, told⟩ := @visitAt_follows s t before isModuleFile hs
      (noScript t List.mem_cons_self) (two t List.mem_cons_self)
    have ho' : order = before ++ [t] ++ l ++ after := by simp [ho]
    have rest := ih ho' (fun u hu => noScript u (List.mem_cons_of_mem t hu))
      (fun u hu => two u (List.mem_cons_of_mem t hu)) name
    have first : order.take before.length = before := by simp [ho]
    rw [List.foldl_cons, rest, told, List.zipIdx_cons, List.flatMap_cons, List.append_assoc]
    rw [List.length_append, List.length_singleton]
    dsimp only
    rw [first]

/-- A place below the top of a tree has a parent. -/
lemma parent?_ne_none {parent : Node} {above : List (Node × Nat)} {i : Nat} {l : List Node}
    {t : Spot} (h : t ∈ Node.postorderFrom parent above i l) : t.parent? ≠ none := by
  obtain ⟨j, c, -, ht⟩ := Node.mem_postorderFrom.mp h
  obtain ⟨path, hp⟩ := Node.mem_postorder.mp ht
  refine @Spot.at?_keeps (fun u => u.parent? ≠ none) ?_ _ _ path (by simp [Spot.parent?]) hp
  intro u i v _ hv
  rw [(Spot.child?_eq_some hv).2]
  exact Option.some_ne_none _

/-- The script itself comes last, and nothing is expected of it. -/
lemma expectedReports_eq (hk : n.kind = .script) :
    n.expectedReports = ((Node.postorderFrom n [] 0 n.children).zipIdx 0).flatMap fun (t, i) =>
      t.expected ((n.postorder []).take i) := by
  have nothing (before : List Spot) : (Spot.mk n []).expected before = [] := by
    rw [expected_other (by simp [hk])]
    simp [Spot.shorthands, Spot.outsideFunctions, Spot.globalName, hk]
  let below := Node.postorderFrom n [] 0 n.children
  let expect : Spot × Nat → List Report := fun (t, i) => t.expected ((n.postorder []).take i)
  let top : Spot := ⟨n, []⟩
  have order : n.postorder [] = below ++ [top] := Node.postorder_eq n []
  have last : expect (top, 0 + below.length) = [] := nothing _
  calc n.expectedReports = (n.postorder []).zipIdx.flatMap expect := rfl
    _ = (below ++ [top]).zipIdx.flatMap expect := by rw [← order]
    _ = below.zipIdx.flatMap expect ++ expect (top, 0 + below.length) := by
      rw [List.zipIdx_append, List.flatMap_append, List.zipIdx_singleton, List.flatMap_singleton]
    _ = below.zipIdx.flatMap expect := by rw [last, List.append_nil]

/-- Below a script there are no scripts, and assignments have a target and a value. -/
lemma below_script (h : n.As (·.kind = .script)) {t : Spot}
    (ht : t ∈ Node.postorderFrom n [] 0 n.children) :
    t.node.kind ≠ .script ∧
      (t.node.kind = .assign → ∃ target value, t.node.children = [target, value]) := by
  have listed : t ∈ n.postorder [] := by
    rw [Node.postorder_eq]
    exact List.mem_append_left _ ht
  obtain ⟨path, hp⟩ := Node.mem_postorder.mp listed
  have arranged := h.arranged_at hp
  refine ⟨fun hk => parent?_ne_none ht (arranged.script hk), fun hk => ?_⟩
  have least := arranged.atLeast
  have most := arranged.atMost 2 (by rw [hk]; rfl)
  rw [hk] at least
  simp only [NodeKind.childCount] at least
  exact List.length_eq_two.mp (by omega)

/-- In the walk over a script that is a module file, what is expected is reported. -/
lemma walk_reports (h : n.As (·.kind = .script)) (hm : isModuleFile n = true)
    (hs : s.moduleName = none) :
    ((moduleVisitor isModuleFile).walk (.start []) n s).reports =
      s.reports ++ n.expectedReports := by
  have passes : ∀ t ∈ Node.postorderFrom n [] 0 n.children,
      (moduleVisitor isModuleFile).Passes t.node :=
    fun t ht c s => enters_other (below_script h ht).1 isModuleFile c s
  have walked := (moduleVisitor isModuleFile).walkAll_eq_foldl
    (fun c _ above s hc => Visitor.walk_eq_foldl _ c above s hc) 0
    (s.tell (.classified n.value true)) passes
  have order : n.postorder [] = [] ++ Node.postorderFrom n [] 0 n.children ++ [⟨n, []⟩] :=
    Node.postorder_eq n []
  have noName : (s.tell (.classified n.value true)).moduleName = Spot.declaredName [] := hs
  have told := @foldl_reports _ [] isModuleFile _ _ _ order (fun t ht => (below_script h ht).1)
    (fun t ht => (below_script h ht).2) noName
  have classified : (s.tell (.classified n.value true)).reports = s.reports := by
    simp [tell, reports]
  have leaves (c : WalkContext) (s : CheckState) :
      ((moduleVisitor isModuleFile).visit c n s).reports = s.reports := by
    change (visit _ n s).reports = _
    unfold visit
    rw [h.1]
    rfl
  have start : WalkContext.start [] = (Spot.mk n []).context := rfl
  rw [Visitor.walk_of_enters (enters_module h.1 hm _ s), leaves, start, walked, told, classified,
    expectedReports_eq h.1]
  rfl

lemma reports_told (h : n.As (·.kind = .script)) (hm : isModuleFile n = true) :
    CheckState.reports ⟨none, told isModuleFile n⟩ = n.expectedReports := by
  have walked := @walk_reports .start n isModuleFile h hm rfl
  exact walked.trans (List.nil_append _)

end Scripts

end CheckState

/-- **A checker reports exactly what is expected** of a script that is a module file, whether it
checks the script again, wherever it stands, or a program of this script alone. -/
theorem check_reports_expected {name : Bytes} {tokens : List Token} {script : Node}
    (h : Grammar.script name tokens = .ok script) {isModuleFile : Node → Bool}
    (hm : isModuleFile script = true) {s : CheckState} (hs : s.moduleName = none) :
    (∀ above, (s.recheckScript isModuleFile ⟨script, above⟩).reports =
      s.reports ++ script.expectedReports) ∧
    ∀ root hasImportPass, root.kind = .root → root.children = [script] →
      (s.checkProgram isModuleFile hasImportPass (.root root)).reports =
        s.reports ++ script.expectedReports := by
  have shape := Grammar.script_as h
  have told := CheckState.reports_told shape hm
  constructor
  · intro above
    rw [CheckState.recheckScript_eq isModuleFile shape.1 hs, ← told]
    simp [CheckState.reports]
  · intro root hasImportPass hk hc
    have hl : ∀ n ∈ root.children, n.kind = .script := by simp [hc, shape.1]
    rw [CheckState.checkProgram_eq isModuleFile hk hl hs, ← told, hc]
    cases hasImportPass <;> simp [CheckState.reports]

/-- The script `goog.module('a'); this;` refers to `this`, alone or in a program. -/
theorem check_reports_expected_this :
    let tokens : List Token :=
      [(TokenKind.identifier, "goog"), (.dot, "."), (.identifier, "module"), (.lparen, "("),
        (.string, "a"), (.rparen, ")"), (.semi, ";"), (.kwThis, "this"), (.semi, ";"),
        (.eof, "")].map fun (kind, text) => ⟨kind, .none, ascii text, ascii text, false⟩
    ∃ script, Grammar.script [] tokens = .ok script ∧ script.isModuleFile = true ∧
      (CheckState.start.recheckScript Node.isModuleFile ⟨script, []⟩).reports =
        [⟨.referencesThis, .none⟩] ∧
      (CheckState.start.checkProgram Node.isModuleFile true
        (.root (.of .root .none [script]))).reports = [⟨.referencesThis, .none⟩] := by
  intro tokens
  refine ⟨_, rfl, by decide +kernel, ?_⟩
  have reports := @check_reports_expected [] tokens _ rfl Node.isModuleFile (by decide +kernel)
    .start rfl
  rw [reports.1 [], reports.2 _ true rfl rfl]
  decide +kernel

end ModuleLint
