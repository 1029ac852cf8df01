import Mathlib.Data.List.Basic
import ModuleLint.Proofs.Check.Expected

/-!
Scripts are checked independently.

What a step tells depends on the name that the checker has in mind, not on what was told before. The
name is gone after each script, and nothing above a script matters inside it. So what a run tells is
put together from what fresh runs over its scripts tell.
-/

namespace ModuleLint

namespace CheckState

variable {s : CheckState} {n : Node}

/-! ### The way up from a call -/

lemma declarationOf_cons {kinds : List NodeKind} {declarator : Node} {above : List Node} :
    Spot.declarationOf kinds (declarator :: above) =
      if declarator.kind ∈ kinds then above.head?.filter (·.kind.isDeclaration) else none := by
  cases above with
  | nil => simp [Spot.declarationOf]
  | cons declaration above =>
    rw [Spot.declarationOf, List.head?_cons, Option.filter_some]
    by_cases hk : declarator.kind ∈ kinds <;> simp [hk]

/-- The declaration that a checker finds by its way up is the consumer. -/
lemma consumer_eq (ancestors : List Node) :
    Spot.consumer ancestors =
      (consumingDeclarator ancestors).bind fun above =>
        above.head?.filter (·.kind.isDeclaration) := by
  cases ancestors with
  | nil => rfl
  | cons parent above =>
    rw [Spot.consumer]
    unfold consumingDeclarator
    dsimp only
    split
    case isTrue hk =>
      rw [hk]
      cases above with
      | nil => rfl
      | cons name above =>
        rw [declarationOf_cons]
        by_cases hn : name.kind = .name <;> simp [hn]
    case isFalse hk =>
      rw [declarationOf_cons]
      split
      case isTrue hm =>
        have kinds : parent.kind = .name ∨ parent.kind = .destructuring := by simpa using hm
        rcases kinds with hp | hp <;> rw [hp] <;> rfl
      case isFalse hm =>
        split
        case h_1 hp | h_2 hp => simp [hp] at hm
        case h_3 hp => exact absurd hp hk
        case h_4 => rfl

/-- A `goog.require` call is judged by the declaration that takes its value. -/
lemma requireCall_eq (s : CheckState) (ancestors : List Node) (call : Node) :
    s.requireCall ancestors call =
      if Node.optionIs .exprStmt ancestors.head? then s
      else
        match Spot.consumer ancestors with
        | some declaration =>
          if declaration.bindings > 1 then s.report .oneRequirePerDeclaration declaration else s
        | none => s.report .requireNotAtTopLevel call := by
  unfold requireCall
  rw [consumer_eq]
  split
  · rfl
  · rcases consumingDeclarator ancestors with - | (- | ⟨declaration, above⟩)
    · rfl
    · rfl
    · simp only [Option.bind_some, List.head?_cons, Option.filter_some]
      cases declaration.kind.isDeclaration <;> rfl

section Outer

variable {inner outer outer' : List Node} {script : Node}

lemma head?_outer : (inner ++ script :: outer).head? = (inner ++ script :: outer').head? := by
  cases inner <;> rfl

lemma declarationOf_outer (hk : script.kind = .script) {kinds : List NodeKind}
    (h : .script ∉ kinds) :
    Spot.declarationOf kinds (inner ++ script :: outer) =
      Spot.declarationOf kinds (inner ++ script :: outer') := by
  cases inner with
  | nil =>
    rw [List.nil_append, List.nil_append, declarationOf_cons, declarationOf_cons, hk, if_neg h,
      if_neg h]
  | cons m inner =>
    rw [List.cons_append, List.cons_append, declarationOf_cons, declarationOf_cons, head?_outer]

lemma consumer_outer (hk : script.kind = .script) :
    Spot.consumer (inner ++ script :: outer) = Spot.consumer (inner ++ script :: outer') := by
  cases inner with
  | nil =>
    rw [List.nil_append, List.nil_append, Spot.consumer, Spot.consumer]
    rw [if_neg (by simp [hk]), if_neg (by simp [hk])]
    exact @declarationOf_outer [] _ _ _ hk _ (by simp)
  | cons m inner =>
    rw [List.cons_append, List.cons_append, Spot.consumer, Spot.consumer]
    split
    · exact declarationOf_outer hk (by simp)
    · exact @declarationOf_outer (m :: inner) _ _ _ hk _ (by simp)

lemma requireCall_outer (hk : script.kind = .script) (call : Node) :
    s.requireCall (inner ++ script :: outer) call =
      s.requireCall (inner ++ script :: outer') call := by
  rw [requireCall_eq, requireCall_eq, head?_outer, consumer_outer hk]

end Outer

/-- Contexts inside one script that lies at different places. -/
structure SameInside (c c' : WalkContext) : Prop where
  depth : c.functionDepth = c'.functionDepth
  ancestors : ∃ inner script outer outer', script.kind = .script ∧
    c.ancestors = inner ++ script :: outer ∧ c'.ancestors = inner ++ script :: outer'

section Contexts

variable {c c' : WalkContext}

lemma SameInside.inside (h : SameInside c c') : SameInside (c.inside n) (c'.inside n) := by
  obtain ⟨depth, inner, script, outer, outer', hk, hc, hc'⟩ := h
  refine ⟨?_, n :: inner, script, outer, outer', hk, ?_, ?_⟩
  · rw [WalkContext.inside, WalkContext.inside, depth]
  · rw [WalkContext.inside, hc, List.cons_append]
  · rw [WalkContext.inside, hc', List.cons_append]

lemma sameInside_of_script (hk : n.kind = .script) (depth : c.functionDepth = c'.functionDepth) :
    SameInside (c.inside n) (c'.inside n) := by
  refine ⟨?_, [], n, c.ancestors, c'.ancestors, hk, rfl, rfl⟩
  rw [WalkContext.inside, WalkContext.inside, depth]

lemma visit_outer (h : SameInside c c') : s.visit (c.visiting n) n = s.visit (c'.visiting n) n := by
  obtain ⟨depth, inner, script, outer, outer', hk, hc, hc'⟩ := h
  have ancestors : (c.visiting n).ancestors = inner ++ script :: outer := hc
  have ancestors' : (c'.visiting n).ancestors = inner ++ script :: outer' := hc'
  have call : s.call (c.visiting n).ancestors n = s.call (c'.visiting n).ancestors n := by
    rw [ancestors, ancestors']
    unfold CheckState.call
    rw [requireCall_outer hk]
  have parent : (c.visiting n).parent? = (c'.visiting n).parent? := by
    rw [WalkContext.parent?, WalkContext.parent?, ancestors, ancestors', head?_outer]
  have outside : (c.visiting n).isOutsideFunctions = (c'.visiting n).isOutsideFunctions := by
    change (c.functionDepth == 0) = (c'.functionDepth == 0)
    rw [depth]
  unfold visit
  rw [call, parent, outside]

end Contexts

/-! ### Scripts -/

section Enters

variable {isModuleFile : Node → Bool}

lemma enters_module (hk : n.kind = .script) (hm : isModuleFile n = true) (c : WalkContext)
    (s : CheckState) :
    (moduleVisitor isModuleFile).enters c n s = (true, s.tell (.classified n.value true)) := by
  change enters isModuleFile n s = _
  rw [enters, if_pos hk, hm]

lemma enters_refused (hk : n.kind = .script) (hm : isModuleFile n = false) (c : WalkContext)
    (s : CheckState) :
    (moduleVisitor isModuleFile).enters c n s = (false, s.tell (.classified n.value false)) := by
  change enters isModuleFile n s = _
  rw [enters, if_pos hk, hm]

lemma enters_other (hk : n.kind ≠ .script) (isModuleFile : Node → Bool) (c : WalkContext)
    (s : CheckState) : (moduleVisitor isModuleFile).enters c n s = (true, s) := by
  change enters isModuleFile n s = _
  rw [enters, if_neg hk]

/-- A script is walked the same way wherever it stands outside of functions. -/
lemma walk_outer {c c' : WalkContext} (hk : n.kind = .script)
    (depth : c.functionDepth = c'.functionDepth) (s : CheckState) :
    (moduleVisitor isModuleFile).walk c n s = (moduleVisitor isModuleFile).walk c' n s := by
  refine Visitor.walk_congr_of_children rfl (fun s => ?_) fun m _ s => ?_
  · change s.visit (c.visiting n) n = s.visit (c'.visiting n) n
    unfold visit
    rw [hk]
  · exact Visitor.walk_congr (R := SameInside) (fun _ => rfl) visit_outer .inside m
      (sameInside_of_script hk depth) s

end Enters

/-! ### What a run tells -/

/-- What the function tells, and the name after it, depend on the name before it alone. It tells of
no pass over imports. -/
def Emits (f : CheckState → CheckState) : Prop :=
  ∀ name, ∃ name' told, .importsChecked ∉ told ∧
    ∀ before, f ⟨name, before⟩ = ⟨name', before ++ told⟩

lemma Emits.congr {f g : CheckState → CheckState} (hf : Emits f) (h : ∀ s, g s = f s) :
    Emits g := by
  rw [funext h]
  exact hf

lemma emits_id : Emits id := fun name => ⟨name, [], by simp, fun before => by simp⟩

lemma Emits.comp {f g : CheckState → CheckState} (hg : Emits g) (hf : Emits f) :
    Emits fun s => g (f s) := by
  intro name
  obtain ⟨name', told, quiet, hf⟩ := hf name
  obtain ⟨name'', told', quiet', hg⟩ := hg name'
  refine ⟨name'', told ++ told', by simp [quiet, quiet'], fun before => ?_⟩
  change g (f _) = _
  rw [hf, hg, List.append_assoc]

lemma Emits.ite {p : Prop} [Decidable p] {f g : CheckState → CheckState} (hf : Emits f)
    (hg : Emits g) : Emits fun s => if p then f s else g s := by
  split
  · exact hf
  · exact hg

lemma emits_tell {notice : CheckNotice} (h : .importsChecked ≠ notice) : Emits (tell · notice) :=
  fun name => ⟨name, [notice], by simpa using h, fun _ => rfl⟩

lemma emits_report (kind : FindingKind) (n : Node) : Emits (report · kind n) := emits_tell nofun

lemma emits_moduleCall (call : Node) : Emits (moduleCall · call) := by
  intro name
  cases name with
  | some name => exact emits_report .multipleModules call (some name)
  | none =>
    let given := ((call.second?.filter (·.kind == .stringLit)).map (·.value)).getD []
    exact ⟨some given, [.named given], by simp, fun _ => rfl⟩

lemma emits_requireCall (ancestors : List Node) (call : Node) :
    Emits (requireCall · ancestors call) := by
  simp only [requireCall_eq]
  refine .ite emits_id ?_
  cases Spot.consumer ancestors with
  | none => exact emits_report _ _
  | some declaration => exact .ite (emits_report _ _) emits_id

lemma emits_exportsAssignment (assign : Node) : Emits (exportsAssignment · assign) := by
  have each (keys : List Node) : Emits fun s => keys.foldl (report · .shorthandExports ·) s := by
    induction keys with
    | nil => exact emits_id
    | cons key keys ih => exact ih.comp (emits_report _ key)
  unfold exportsAssignment
  cases assign.last? with
  | none => exact emits_id
  | some value => exact .ite (each _) emits_id

lemma emits_propertyAccess (parent : Option Node) (n : Node) :
    Emits (propertyAccess · parent n) := by
  intro name
  have access : Emits fun s => if name.any n.spells ∧ ¬ Node.optionIs .getProp parent then
      s.report .globalName n else s := .ite (emits_report _ _) emits_id
  exact access name

lemma emits_visit (c : WalkContext) (n : Node) : Emits (visit c n) := by
  unfold visit
  cases n.kind
  case call =>
    refine .ite (emits_moduleCall n) (.ite (emits_report _ _) (.ite ?_ emits_id))
    exact emits_requireCall _ n
  case assign => exact .ite (emits_exportsAssignment n) emits_id
  case thisExpr | throwStmt => exact .ite (emits_report _ _) emits_id
  case getProp => exact emits_propertyAccess _ n
  case script => exact fun name => ⟨none, [], by simp, fun before => by simp⟩
  all_goals exact emits_id

lemma emits_walk (isModuleFile : Node → Bool) (c : WalkContext) (n : Node) :
    Emits ((moduleVisitor isModuleFile).walk c n) := by
  induction n using Node.induction generalizing c with
  | step n ih =>
    have all (c : WalkContext) : ∀ l : List Node, (∀ m ∈ l, m ∈ n.children) →
        Emits ((moduleVisitor isModuleFile).walkAll c l) := by
      intro l
      induction l with
      | nil => exact fun _ => emits_id
      | cons m l ihl =>
        intro hl
        have rest := ihl fun k hk => hl k (List.mem_cons_of_mem m hk)
        exact rest.comp (ih m (hl m List.mem_cons_self) c)
    have visited : Emits fun s => (moduleVisitor isModuleFile).visit (c.visiting n) n
        ((moduleVisitor isModuleFile).walkAll (c.inside n) n.children s) :=
      (emits_visit _ n).comp (all _ _ fun m hm => hm)
    by_cases hk : n.kind = .script
    · have classified (goes : Bool) : Emits (tell · (.classified n.value goes)) := emits_tell nofun
      cases hm : isModuleFile n with
      | false =>
        exact (classified false).congr fun s => Visitor.walk_of_refuses (enters_refused hk hm c s)
      | true =>
        refine (visited.comp (classified true)).congr fun s => ?_
        exact Visitor.walk_of_enters (enters_module hk hm c s)
    · exact visited.congr fun s => Visitor.walk_of_enters (enters_other hk isModuleFile c s)

/-! ### Runs over scripts -/

/-- What a fresh checker tells in a walk over a script. -/
def told (isModuleFile : Node → Bool) (script : Node) : List CheckNotice :=
  ((moduleVisitor isModuleFile).walk (.start []) script .start).notices

section Runs

variable (isModuleFile : Node → Bool)

lemma importsChecked_not_mem_told (script : Node) : .importsChecked ∉ told isModuleFile script := by
  obtain ⟨name, l, quiet, walk⟩ := emits_walk isModuleFile (.start []) script none
  unfold told start
  rw [walk []]
  exact quiet

/-- No name is left after a script: it is cleared on the way out, or was never declared. -/
lemma walk_script_moduleName {c : WalkContext} (hk : n.kind = .script) (hs : s.moduleName = none) :
    ((moduleVisitor isModuleFile).walk c n s).moduleName = none := by
  cases hm : isModuleFile n with
  | false =>
    rw [Visitor.walk_of_refuses (enters_refused hk hm c s)]
    exact hs
  | true =>
    rw [Visitor.walk_of_enters (enters_module hk hm c s)]
    change (visit _ n _).moduleName = none
    unfold visit
    rw [hk]

lemma walk_script {c : WalkContext} (hk : n.kind = .script) (depth : c.functionDepth = 0)
    (hs : s.moduleName = none) :
    (moduleVisitor isModuleFile).walk c n s = ⟨none, s.notices ++ told isModuleFile n⟩ := by
  obtain ⟨name, l, quiet, walk⟩ := emits_walk isModuleFile (.start []) n none
  have fresh : told isModuleFile n = l := by
    unfold told start
    rw [walk []]
    rfl
  have noName : name = none := by
    have none := @walk_script_moduleName ⟨none, []⟩ n isModuleFile (.start []) hk rfl
    rw [walk []] at none
    exact none
  have sameDepth : c.functionDepth = (WalkContext.start []).functionDepth := depth
  obtain ⟨name', notices⟩ := s
  cases hs
  rw [walk_outer hk sameDepth, walk notices, fresh, noName]

lemma walkAll_scripts {c : WalkContext} (depth : c.functionDepth = 0) {l : List Node}
    (hl : ∀ n ∈ l, n.kind = .script) (hs : s.moduleName = none) :
    (moduleVisitor isModuleFile).walkAll c l s =
      ⟨none, s.notices ++ l.flatMap (told isModuleFile)⟩ := by
  induction l generalizing s with
  | nil =>
    cases s
    cases hs
    simp [Visitor.walkAll]
  | cons n l ih =>
    rw [Visitor.walkAll, walk_script isModuleFile (hl n List.mem_cons_self) depth hs]
    rw [ih (fun m hm => hl m (List.mem_cons_of_mem n hm)) rfl]
    rw [List.append_assoc, List.flatMap_cons]

lemma recheckScript_eq {spot : Spot} (hk : spot.node.kind = .script) (hs : s.moduleName = none) :
    s.recheckScript isModuleFile spot =
      ⟨none, s.notices ++ .rechecking spot.node.value :: told isModuleFile spot.node⟩ := by
  have hs' : (s.tell (.rechecking spot.node.value)).moduleName = none := hs
  have depth (above : List Node) : (WalkContext.start above).functionDepth = 0 := rfl
  rw [recheckScript, walk, walk_script isModuleFile hk (depth _) hs', tell, List.append_assoc]
  rfl

lemma checkProgram_eq {hasImportPass : Bool} {root : Node} (hk : root.kind = .root)
    (hl : ∀ n ∈ root.children, n.kind = .script) (hs : s.moduleName = none) :
    s.checkProgram isModuleFile hasImportPass (.root root) =
      ⟨none, s.notices ++
        (.started root.children.length :: root.children.flatMap (told isModuleFile) ++
          if hasImportPass then [.importsChecked] else [])⟩ := by
  have hs' : (s.tell (.started root.children.length)).moduleName = none := hs
  have noScript : root.kind ≠ .script := by simp [hk]
  have depth : ((WalkContext.start []).inside root).functionDepth = 0 := by
    simp [WalkContext.inside, WalkContext.start, NodeKind.opensFunctionScope, hk]
  have walked : (s.tell (.started root.children.length)).walk isModuleFile (.root root) =
      ⟨none, s.notices ++
        .started root.children.length :: root.children.flatMap (told isModuleFile)⟩ := by
    change (moduleVisitor isModuleFile).walk (.start []) root _ = _
    rw [Visitor.walk_of_enters (enters_other noScript isModuleFile _ _)]
    rw [walkAll_scripts isModuleFile depth hl hs']
    change visit _ root _ = _
    unfold visit
    rw [hk, tell]
    simp
  change (if hasImportPass then tell _ .importsChecked else _) = _
  rw [show (Spot.root root).node.children.length = root.children.length from rfl, walked]
  cases hasImportPass <;> simp [tell]

end Runs

end CheckState

/-! ### Histories of calls -/

/-- A call of a checker: a run over a program, or over one script again, wherever it stands. -/
inductive CheckCall
  | program (root : Node)
  | script (spot : Spot)

namespace CheckCall

def scripts : CheckCall → List Node
  | program root => root.children
  | script spot => [spot.node]

/-- The call is about scripts; a program consists of nothing else. -/
def OnScripts (call : CheckCall) : Prop :=
  (∀ n ∈ call.scripts, n.kind = .script) ∧ ∀ root, call = program root → root.kind = .root

def run (isModuleFile : Node → Bool) (hasImportPass : Bool) (s : CheckState) :
    CheckCall → CheckState
  | program root => s.checkProgram isModuleFile hasImportPass (.root root)
  | script spot => s.recheckScript isModuleFile spot

/-- The passes over imports that belong to a call. -/
def importRuns (hasImportPass : Bool) : CheckCall → List CheckNotice
  | program _ => if hasImportPass then [.importsChecked] else []
  | script _ => []

/-- What a call tells before it comes to imports. -/
def tells (isModuleFile : Node → Bool) : CheckCall → List CheckNotice
  | program root =>
    .started root.children.length :: root.children.flatMap (CheckState.told isModuleFile)
  | script spot => .rechecking spot.node.value :: CheckState.told isModuleFile spot.node

variable {isModuleFile : Node → Bool} {hasImportPass : Bool} {s : CheckState}

open CheckState

lemma run_eq {call : CheckCall} (hc : call.OnScripts) (hs : s.moduleName = none) :
    call.run isModuleFile hasImportPass s =
      ⟨none, s.notices ++ (call.tells isModuleFile ++ call.importRuns hasImportPass)⟩ := by
  obtain ⟨scripts, top⟩ := hc
  cases call with
  | script spot =>
    have hk : spot.node.kind = .script := scripts spot.node (by simp [CheckCall.scripts])
    rw [run, recheckScript_eq isModuleFile hk hs, importRuns, List.append_nil]
    rfl
  | program root =>
    rw [run, checkProgram_eq isModuleFile (top root rfl) scripts hs]
    rfl

lemma importsChecked_not_mem_tells (call : CheckCall) :
    .importsChecked ∉ call.tells isModuleFile := by
  cases call with
  | script spot => simp [tells, importsChecked_not_mem_told]
  | program root => simp [tells, importsChecked_not_mem_told]

lemma reports_tells (call : CheckCall) :
    CheckState.reports ⟨none, [] ++ (call.tells isModuleFile ++ call.importRuns hasImportPass)⟩ =
      call.scripts.flatMap fun n => CheckState.reports ⟨none, told isModuleFile n⟩ := by
  cases call with
  | script spot => simp [reports, tells, importRuns, scripts]
  | program root =>
    cases hasImportPass <;> simp [reports, tells, importRuns, scripts, List.filterMap_flatMap]

/-- Histories put together what their calls tell. -/
lemma foldl_run_eq {calls : List CheckCall} (hc : ∀ call ∈ calls, call.OnScripts)
    (hs : s.moduleName = none) :
    calls.foldl (run isModuleFile hasImportPass) s =
      ⟨none, s.notices ++
        calls.flatMap fun call => call.tells isModuleFile ++ call.importRuns hasImportPass⟩ := by
  induction calls generalizing s with
  | nil =>
    cases s
    cases hs
    simp
  | cons call calls ih =>
    rw [List.foldl_cons, run_eq (hc call List.mem_cons_self) hs]
    rw [ih (fun other ho => hc other (List.mem_cons_of_mem call ho)) rfl]
    rw [List.flatMap_cons, List.append_assoc]

/-- **Scripts are checked independently.** After any history of calls no name is left, and what was
told is what fresh checkers tell of the calls. A fresh checker reports of a call what it reports of
the scripts one by one, and then runs the pass over imports once, if there is one and the call is
for a program. -/
theorem checks_independent (isModuleFile : Node → Bool) (hasImportPass : Bool)
    {calls : List CheckCall} (hc : ∀ call ∈ calls, call.OnScripts) {s : CheckState}
    (hs : s.moduleName = none) :
    (calls.foldl (run isModuleFile hasImportPass) s).moduleName = none ∧
    (calls.foldl (run isModuleFile hasImportPass) s).notices =
      s.notices ++
        calls.flatMap (fun call => (call.run isModuleFile hasImportPass .start).notices) ∧
    ∀ call ∈ calls,
      (call.run isModuleFile hasImportPass .start).reports =
        call.scripts.flatMap (fun n =>
          (CheckState.start.recheckScript isModuleFile (.root n)).reports) ∧
      ∃ told, .importsChecked ∉ told ∧
        (call.run isModuleFile hasImportPass .start).notices =
          told ++ call.importRuns hasImportPass := by
  refine ⟨by rw [foldl_run_eq hc hs], ?_, fun call hcall => ?_⟩
  · have fresh : ∀ call ∈ calls, (call.run isModuleFile hasImportPass .start).notices =
        call.tells isModuleFile ++ call.importRuns hasImportPass := by
      intro call hcall
      rw [run_eq (hc call hcall) rfl]
      exact List.nil_append _
    rw [foldl_run_eq hc hs, List.flatMap_congr fresh]
  · have fresh := @run_eq isModuleFile hasImportPass .start call (hc call hcall) rfl
    rw [fresh]
    refine ⟨?_, call.tells isModuleFile, importsChecked_not_mem_tells call, List.nil_append _⟩
    have scripts : call.scripts.flatMap (fun n =>
          (CheckState.start.recheckScript isModuleFile (.root n)).reports) =
        call.scripts.flatMap fun n => CheckState.reports ⟨none, told isModuleFile n⟩ := by
      refine List.flatMap_congr fun n hn => ?_
      rw [recheckScript_eq isModuleFile ((hc call hcall).1 n hn) rfl]
      rfl
    rw [scripts]
    exact reports_tells call

/-- A program of two scripts, each with a `this` of its own, and one of them again. -/
theorem checks_independent_twice :
    let script := Node.of .script .none [.of .exprStmt .none [.leaf .thisExpr [] .none]]
    let calls : List CheckCall :=
      [program (.of .root .none [script, script]), CheckCall.script (.root script)]
    (∀ call ∈ calls, call.OnScripts) ∧
      (calls.foldl (run (fun _ => true) true) .start).moduleName = none ∧
      ((program (.of .root .none [script, script])).run (fun _ => true) true .start).reports =
        [⟨.referencesThis, .none⟩, ⟨.referencesThis, .none⟩] := by
  intro script calls
  have hc : ∀ call ∈ calls, call.OnScripts := by
    simp [calls, script, OnScripts, scripts, Spot.root]
  obtain ⟨noName, -, each⟩ := checks_independent (fun _ => true) true hc (s := .start) rfl
  exact ⟨hc, noName, (each _ List.mem_cons_self).1⟩

end CheckCall

end ModuleLint
