import ModuleLint.Proofs.Syntax.Preorder

/-!
When the hooks of a visitor are called.

A walk asks of each place that is below no refused one, in pre-order, and visits each accepted one
of them, in post-order. What a hook is told besides the node depends on the place and on the start
of the walk alone.
-/

namespace ModuleLint

/-- The two hooks of a visitor. -/
inductive Hook
  | enters
  | visits
  deriving DecidableEq

/-- A call of a hook: the place of the node, and the context that the hook is told. -/
structure HookCall where
  hook : Hook
  place : Spot
  context : WalkContext

namespace HookCall

/-- Once a place was visited, no hook is called for it or for a place below it. -/
def Closes (a b : HookCall) : Prop :=
  a.hook = .visits → ∀ path, a.place.at? path ≠ some b.place

/-- The places that a hook is called for, in order. -/
def placesOf (hook : Hook) (calls : List HookCall) : List Spot :=
  (calls.filter (·.hook == hook)).map (·.place)

lemma placesOf_append {hook : Hook} {l m : List HookCall} :
    placesOf hook (l ++ m) = placesOf hook l ++ placesOf hook m := by
  rw [placesOf, List.filter_append, List.map_append]
  rfl

end HookCall

/-! ### The calls for a tree -/

namespace Spot

/-- The context of a place on a walk from `start`. -/
def contextFrom (start t : Spot) : WalkContext where
  ancestors := t.ancestors
  functionDepth := (start.enclosing t).countP (·.node.kind.opensFunctionScope)
  script := ((start.enclosing t).find? (·.node.kind == .script)).map (·.node)

/-- No place above `t` within a walk from `start` is refused. -/
def reaches (start : Spot) (accepts : Spot → Bool) (t : Spot) : Bool :=
  (start.enclosing t).all accepts

/-- Whether a place is reached and gone into. -/
def goesInto (start : Spot) (accepts : Spot → Bool) (t : Spot) : Bool :=
  start.reaches accepts t && accepts t

end Spot

section Calls

variable (accepts : Spot → Bool) (start : Spot)

/-- The question whether to go into a place. -/
def askOf (t : Spot) : HookCall := ⟨.enters, t, start.contextFrom t⟩

/-- The visit of a place. -/
def visitOf (t : Spot) : HookCall := ⟨.visits, t, (start.contextFrom t).visiting t.node⟩

/-- A call for a place below some ancestors, with the context of the place. -/
def HookCall.Placed (above : List (Node × Nat)) (call : HookCall) : Prop :=
  above <:+ call.place.above ∧ (call = askOf start call.place ∨ call = visitOf start call.place)

lemma placesOf_enters_ask (t : Spot) (l : List HookCall) :
    HookCall.placesOf .enters (askOf start t :: l) = t :: HookCall.placesOf .enters l := rfl

lemma placesOf_enters_visit (t : Spot) : HookCall.placesOf .enters [visitOf start t] = [] := rfl

lemma placesOf_visits_ask (t : Spot) (l : List HookCall) :
    HookCall.placesOf .visits (askOf start t :: l) = HookCall.placesOf .visits l := rfl

lemma placesOf_visits_visit (t : Spot) : HookCall.placesOf .visits [visitOf start t] = [t] := rfl

namespace Node

mutual

/-- The calls for a tree below some ancestors. -/
def hookCalls (above : List (Node × Nat)) : Node → List HookCall
  | ⟨kind, value, span, flags, children⟩ =>
    let n : Node := ⟨kind, value, span, flags, children⟩
    askOf start ⟨n, above⟩ ::
      if accepts ⟨n, above⟩ then hookCallsFrom n above 0 children ++ [visitOf start ⟨n, above⟩]
      else []

/-- The calls for some children of a parent, which have numbers from `i` on. -/
def hookCallsFrom (parent : Node) (above : List (Node × Nat)) (i : Nat) : List Node → List HookCall
  | [] => []
  | c :: rest =>
    c.hookCalls ((parent, i) :: above) ++ hookCallsFrom parent above (i + 1) rest

end

variable {accepts start} {n : Node} {above : List (Node × Nat)} {i : Nat} {l : List Node}

lemma hookCalls_accepted (h : accepts ⟨n, above⟩) : n.hookCalls accepts start above =
    askOf start ⟨n, above⟩ ::
      (hookCallsFrom accepts start n above 0 n.children ++ [visitOf start ⟨n, above⟩]) := by
  cases n
  rw [hookCalls, if_pos h]

lemma hookCalls_refused (h : ¬ accepts ⟨n, above⟩) :
    n.hookCalls accepts start above = [askOf start ⟨n, above⟩] := by
  cases n
  rw [hookCalls, if_neg h]

lemma placed_of_mem_hookCallsFrom {call : HookCall}
    (hl : ∀ c ∈ l, ∀ above, ∀ call ∈ c.hookCalls accepts start above, call.Placed start above)
    (h : call ∈ hookCallsFrom accepts start n above i l) :
    ∃ j, i ≤ j ∧ call.Placed start ((n, j) :: above) := by
  induction l generalizing i with
  | nil => cases h
  | cons c rest ih =>
    obtain ⟨first, others⟩ := List.forall_mem_cons.mp hl
    rw [hookCallsFrom, List.mem_append] at h
    rcases h with h | h
    · exact ⟨i, Nat.le_refl i, first _ call h⟩
    · obtain ⟨j, hj, placed⟩ := ih others h
      exact ⟨j, Nat.le_of_succ_le hj, placed⟩

lemma placed_of_mem_hookCalls (n : Node) (above : List (Node × Nat)) :
    ∀ call ∈ n.hookCalls accepts start above, call.Placed start above := by
  induction n using Node.induction generalizing above with
  | step n ih =>
    intro call h
    by_cases accepted : accepts ⟨n, above⟩
    · rw [hookCalls_accepted accepted, List.mem_cons, List.mem_append, List.mem_singleton] at h
      rcases h with rfl | h | rfl
      · exact ⟨List.suffix_rfl, .inl rfl⟩
      · obtain ⟨j, -, below, context⟩ := placed_of_mem_hookCallsFrom ih h
        exact ⟨(List.suffix_cons _ _).trans below, context⟩
      · exact ⟨List.suffix_rfl, .inr rfl⟩
    · rw [hookCalls_refused accepted, List.mem_singleton] at h
      subst h
      exact ⟨List.suffix_rfl, .inl rfl⟩

/-! ### The order of the calls -/

section Order

variable (h : start.above.length ≤ above.length)
include h

lemma reaches_child (reached : start.reaches accepts ⟨n, above⟩) (accepted : accepts ⟨n, above⟩)
    (c : Node) (i : Nat) : start.reaches accepts ⟨c, (n, i) :: above⟩ := by
  rw [Spot.reaches, Spot.enclosing_child h, List.all_cons, accepted]
  exact reached

/-- Nothing below a refused place is reached. -/
lemma not_reaches {t : Spot} (refused : ¬ accepts ⟨n, above⟩) (ht : (n, i) :: above <:+ t.above) :
    ¬ start.reaches accepts t := fun reached =>
  refused (List.all_eq_true.mp reached _ (Spot.mem_enclosing h ht))

/-- The places of a hook among the calls for some children, if they are some of a list of places of
each child. -/
lemma placesOf_children {hook : Hook} {places : Node → List (Node × Nat) → List Spot}
    {p : Spot → Bool} (reached : start.reaches accepts ⟨n, above⟩) (accepted : accepts ⟨n, above⟩)
    (hl : ∀ c ∈ l, ∀ above, start.above.length ≤ above.length →
      start.reaches accepts ⟨c, above⟩ →
      HookCall.placesOf hook (c.hookCalls accepts start above) = (places c above).filter p) :
    HookCall.placesOf hook (hookCallsFrom accepts start n above i l) =
      ((l.zipIdx i).flatMap fun (c, j) => places c ((n, j) :: above)).filter p := by
  induction l generalizing i with
  | nil => rfl
  | cons c rest ih =>
    obtain ⟨first, others⟩ := List.forall_mem_cons.mp hl
    have deeper : start.above.length ≤ ((n, i) :: above).length := Nat.le_succ_of_le h
    rw [hookCallsFrom, HookCall.placesOf_append, List.zipIdx_cons, List.flatMap_cons,
      List.filter_append, ih others, first _ deeper (reaches_child h reached accepted c i)]

/-- The reached places are asked for in pre-order. -/
lemma placesOf_enters (reached : start.reaches accepts ⟨n, above⟩) :
    HookCall.placesOf .enters (n.hookCalls accepts start above) =
      (n.preorder above).filter (start.reaches accepts) := by
  induction n using Node.induction generalizing above with
  | step n ih =>
    rw [preorder_eq, List.filter_cons_of_pos reached]
    by_cases accepted : accepts ⟨n, above⟩
    · have below : HookCall.placesOf .enters (hookCallsFrom accepts start n above 0 n.children) =
          (preorderFrom n above 0 n.children).filter (start.reaches accepts) := by
        rw [preorderFrom_eq_flatMap]
        exact placesOf_children h reached accepted fun c hc above h reached => ih c hc h reached
      rw [hookCalls_accepted accepted, placesOf_enters_ask, HookCall.placesOf_append, below,
        placesOf_enters_visit, List.append_nil]
    · have nothing : (preorderFrom n above 0 n.children).filter (start.reaches accepts) = [] := by
        refine List.filter_eq_nil_iff.mpr fun t ht => ?_
        rw [(preorderFrom_perm fun c _ => preorder_perm c).mem_iff, mem_postorderFrom] at ht
        obtain ⟨j, c, -, hc⟩ := ht
        exact not_reaches h accepted (suffix_of_mem_postorder hc)
      rw [hookCalls_refused accepted, nothing]
      rfl

/-- The accepted ones among the reached places are visited in post-order. -/
lemma placesOf_visits (reached : start.reaches accepts ⟨n, above⟩) :
    HookCall.placesOf .visits (n.hookCalls accepts start above) =
      (n.postorder above).filter (start.goesInto accepts) := by
  induction n using Node.induction generalizing above with
  | step n ih =>
    rw [postorder_eq, List.filter_append]
    by_cases accepted : accepts ⟨n, above⟩
    · have below : HookCall.placesOf .visits (hookCallsFrom accepts start n above 0 n.children) =
          (postorderFrom n above 0 n.children).filter (start.goesInto accepts) := by
        rw [postorderFrom_eq_flatMap]
        exact placesOf_children h reached accepted fun c hc above h reached => ih c hc h reached
      rw [hookCalls_accepted accepted, placesOf_visits_ask, HookCall.placesOf_append, below,
        placesOf_visits_visit]
      simp [Spot.goesInto, reached, accepted]
    · have nothing : (postorderFrom n above 0 n.children).filter (start.goesInto accepts) = [] := by
        refine List.filter_eq_nil_iff.mpr fun t ht goes => ?_
        obtain ⟨j, c, -, hc⟩ := mem_postorderFrom.mp ht
        exact not_reaches h accepted (suffix_of_mem_postorder hc) (Bool.and_eq_true_iff.mp goes).1
      rw [hookCalls_refused accepted, nothing]
      simp [Spot.goesInto, accepted, HookCall.placesOf, askOf]

end Order

lemma suffix_of_at? {t u : Spot} {path : List Nat} (h : t.at? path = some u) :
    t.above <:+ u.above := suffix_of_mem_postorder (mem_postorder.mpr ⟨path, h⟩)

lemma closes_apart {a b : HookCall} {j k : Nat} (ha : (n, j) :: above <:+ a.place.above)
    (hb : (n, k) :: above <:+ b.place.above) (h : j ≠ k) : HookCall.Closes a b :=
  fun _ _ below => h (child_unique (ha.trans (suffix_of_at? below)) hb)

lemma pairwise_hookCallsFrom
    (hl : ∀ c ∈ l, ∀ above, (c.hookCalls accepts start above).Pairwise HookCall.Closes) :
    (hookCallsFrom accepts start n above i l).Pairwise HookCall.Closes := by
  induction l generalizing i with
  | nil => exact .nil
  | cons c rest ih =>
    obtain ⟨first, others⟩ := List.forall_mem_cons.mp hl
    rw [hookCallsFrom, List.pairwise_append]
    refine ⟨first _, ih others, fun a ha b hb => ?_⟩
    obtain ⟨j, hj, placed, -⟩ :=
      placed_of_mem_hookCallsFrom (fun c _ => placed_of_mem_hookCalls c) hb
    exact closes_apart (placed_of_mem_hookCalls _ _ a ha).1 placed (by omega)

lemma pairwise_hookCalls (n : Node) (above : List (Node × Nat)) :
    (n.hookCalls accepts start above).Pairwise HookCall.Closes := by
  induction n using Node.induction generalizing above with
  | step n ih =>
    by_cases accepted : accepts ⟨n, above⟩
    · rw [hookCalls_accepted accepted, List.pairwise_cons, List.pairwise_append]
      refine ⟨fun _ _ => nofun, pairwise_hookCallsFrom ih, by simp, ?_⟩
      intro a ha b hb _ path below
      obtain ⟨j, -, placed, -⟩ :=
        placed_of_mem_hookCallsFrom (fun c _ => placed_of_mem_hookCalls c) ha
      have longer := (placed.trans (suffix_of_at? below)).length_le
      rw [List.mem_singleton.mp hb, List.length_cons] at longer
      exact Nat.lt_irrefl _ longer
    · rw [hookCalls_refused accepted]
      simp

end Node

end Calls

/-! ### What a walk does -/

namespace Visitor

variable {σ : Type} (v : Visitor σ) (accepts : Spot → Bool)

/-- What a hook does. -/
def perform (s : σ) (call : HookCall) : σ :=
  match call.hook with
  | .enters => (v.enters call.context call.place.node s).2
  | .visits => v.visit call.context call.place.node s

/-- The ancestors of the next child of a parent. -/
def nextChild : List (Node × Nat) → List (Node × Nat)
  | [] => []
  | (n, i) :: above => (n, i + 1) :: above

/-- The visitor with the places to go into fixed. It keeps the ancestors of the node that comes
next, each with the number of the child taken, and so knows each place. -/
def choosing : Visitor (List (Node × Nat) × σ) where
  enters c n s :=
    let t : Spot := ⟨n, s.1⟩
    (accepts t, if accepts t then (n, 0) :: s.1 else nextChild s.1, (v.enters c n s.2).2)
  visit c n s := (nextChild s.1.tail, v.visit c n s.2)

variable {v accepts} {start : Spot} {n : Node} {above : List (Node × Nat)} {i : Nat}
  {l : List Node} {s : σ}

lemma contextFrom_child (h : start.above.length ≤ above.length) (n c : Node) (i : Nat) :
    (start.contextFrom ⟨n, above⟩).inside n = start.contextFrom ⟨c, (n, i) :: above⟩ := by
  unfold WalkContext.inside Spot.contextFrom WalkContext.visiting
  rw [Spot.enclosing_child h, List.countP_cons, List.find?_cons]
  congr 1
  · cases n.kind.opensFunctionScope <;> rfl
  · by_cases script : n.kind = .script
    · simp [script]
    · simp [script, beq_eq_false_iff_ne.mpr script]

lemma walkAll_choosing (h : start.above.length ≤ above.length)
    (hl : ∀ c ∈ l, ∀ above, start.above.length ≤ above.length → ∀ s : σ,
      (v.choosing accepts).walk (start.contextFrom ⟨c, above⟩) c (above, s) =
        (nextChild above, (c.hookCalls accepts start above).foldl v.perform s)) (s : σ) :
    (v.choosing accepts).walkAll ((start.contextFrom ⟨n, above⟩).inside n) l ((n, i) :: above, s) =
      ((n, i + l.length) :: above,
        (Node.hookCallsFrom accepts start n above i l).foldl v.perform s) := by
  induction l generalizing i s with
  | nil => rfl
  | cons c rest ih =>
    obtain ⟨first, others⟩ := List.forall_mem_cons.mp hl
    have deeper : start.above.length ≤ ((n, i) :: above).length := Nat.le_succ_of_le h
    have walked := first _ deeper s
    rw [← contextFrom_child h] at walked
    rw [walkAll, walked, nextChild, ih others, Node.hookCallsFrom, List.foldl_append,
      List.length_cons, Nat.add_right_comm, Nat.add_assoc]

/-- A walk performs the calls of its tree, one after another. -/
lemma walk_choosing (h : start.above.length ≤ above.length) (s : σ) :
    (v.choosing accepts).walk (start.contextFrom ⟨n, above⟩) n (above, s) =
      (nextChild above, (n.hookCalls accepts start above).foldl v.perform s) := by
  induction n using Node.induction generalizing above s with
  | step n ih =>
    have asked : (v.choosing accepts).enters (start.contextFrom ⟨n, above⟩) n (above, s) =
        (accepts ⟨n, above⟩, if accepts ⟨n, above⟩ then (n, 0) :: above else nextChild above,
          v.perform s (askOf start ⟨n, above⟩)) := rfl
    by_cases accepted : accepts ⟨n, above⟩
    · rw [if_pos accepted, accepted] at asked
      rw [walk_of_enters asked, walkAll_choosing h fun c hc above h s => ih c hc h s,
        Node.hookCalls_accepted accepted, List.foldl_cons, List.foldl_append]
      rfl
    · rw [if_neg accepted, Bool.eq_false_iff.mpr accepted] at asked
      rw [walk_of_refuses asked, Node.hookCalls_refused accepted]
      rfl

end Visitor

/-! ### The walk with a register -/

/-- What a walk may keep for all nodes together: the number of function scopes around it and the
script that it is in. -/
structure WalkRegister where
  functionDepth : Nat
  script : Option Node

namespace WalkRegister

/-- Set for what is below a node. -/
def enter (r : WalkRegister) (n : Node) : WalkRegister where
  functionDepth := if n.kind.opensFunctionScope then r.functionDepth + 1 else r.functionDepth
  script := if n.kind = .script then some n else r.script

/-- Set back behind what is below a node, but for the script. -/
def leave (r : WalkRegister) (n : Node) : WalkRegister :=
  if n.kind.opensFunctionScope then { r with functionDepth := r.functionDepth - 1 } else r

/-- What a hook is told. -/
def context (r : WalkRegister) (ancestors : List Node) : WalkContext :=
  ⟨ancestors, r.functionDepth, r.script⟩

variable (r : WalkRegister) (n : Node) (ancestors : List Node)

lemma context_enter :
    (r.enter n).context (n :: ancestors) = (r.context ancestors).inside n := by
  cases opens : n.kind.opensFunctionScope <;>
    simp [enter, context, WalkContext.inside, WalkContext.visiting, opens]

lemma leave_enter : (r.enter n).leave n = { r.enter n with functionDepth := r.functionDepth } := by
  cases opens : n.kind.opensFunctionScope <;> simp [enter, leave, opens]

lemma context_leave :
    ((r.enter n).leave n).context ancestors = (r.context ancestors).visiting n := by
  rw [leave_enter]
  rfl

end WalkRegister

namespace Visitor

variable {σ : Type} (v : Visitor σ)

mutual

/-- The walk with a register, which a node sets for what is below it and sets back behind it. -/
def walkWith (ancestors : List Node) : Node → WalkRegister × σ → WalkRegister × σ
  | ⟨kind, value, span, flags, children⟩, (r, s) =>
    let n : Node := ⟨kind, value, span, flags, children⟩
    match v.enters (r.context ancestors) n s with
    | (false, s) => (r, s)
    | (true, s) =>
      let (below, s) := walkAllWith (n :: ancestors) children (r.enter n, s)
      let behind := below.leave n
      ({ behind with script := r.script }, v.visit (behind.context ancestors) n s)

/-- The walk with a register over trees in order. -/
def walkAllWith (ancestors : List Node) : List Node → WalkRegister × σ → WalkRegister × σ
  | [], s => s
  | n :: rest, s => walkAllWith ancestors rest (walkWith ancestors n s)

end

variable {v} {ancestors : List Node} {n : Node} {l : List Node} {r : WalkRegister} {s t : σ}

lemma walkWith_of_enters (h : v.enters (r.context ancestors) n s = (true, t)) :
    v.walkWith ancestors n (r, s) =
      let below := v.walkAllWith (n :: ancestors) n.children (r.enter n, t)
      let behind := below.1.leave n
      ({ behind with script := r.script }, v.visit (behind.context ancestors) n below.2) := by
  cases n
  rw [walkWith, h]

lemma walkWith_of_refuses (h : v.enters (r.context ancestors) n s = (false, t)) :
    v.walkWith ancestors n (r, s) = (r, t) := by
  cases n
  rw [walkWith, h]

lemma walkAllWith_eq (hl : ∀ c ∈ l, ∀ s, v.walkWith ancestors c (r, s) =
      (r, v.walk (r.context ancestors) c s)) (s : σ) :
    v.walkAllWith ancestors l (r, s) = (r, v.walkAll (r.context ancestors) l s) := by
  induction l generalizing s with
  | nil => rfl
  | cons c rest ih =>
    obtain ⟨first, others⟩ := List.forall_mem_cons.mp hl
    rw [walkAllWith, first, ih others, walkAll]

/-- The walk sets its register back, and on the way tells each hook the context of the node. -/
lemma walkWith_eq (ancestors : List Node) (n : Node) (r : WalkRegister) (s : σ) :
    v.walkWith ancestors n (r, s) = (r, v.walk (r.context ancestors) n s) := by
  induction n using Node.induction generalizing ancestors r s with
  | step n ih =>
    cases asked : v.enters (r.context ancestors) n s with
    | mk goes t =>
      cases goes with
      | false => rw [walkWith_of_refuses asked, walk_of_refuses asked]
      | true =>
        have below := walkAllWith_eq (fun c hc s => ih c hc (n :: ancestors) (r.enter n) s) t
        rw [walkWith_of_enters asked, walk_of_enters asked, below, r.context_enter]
        dsimp only
        rw [r.context_leave, r.leave_enter]

end Visitor

/-! ### The result -/

/-- How hooks are called on a walk from `start` that goes into the places that `accepts` holds
of. -/
structure CallsFit (accepts : Spot → Bool) (start : Spot) (calls : List HookCall) : Prop where
  /-- The walk asks of each place once that is below its start and below no refused place. -/
  once : ∀ hook, (HookCall.placesOf hook calls).Nodup
  asked : ∀ t, t ∈ HookCall.placesOf .enters calls ↔
    (∃ path, start.at? path = some t) ∧ ∀ u ∈ start.enclosing t, accepts u
  /-- It visits the accepted ones among them. -/
  visited : ∀ t, t ∈ HookCall.placesOf .visits calls ↔
    t ∈ HookCall.placesOf .enters calls ∧ accepts t
  /-- It asks in pre-order and visits in post-order. -/
  preorder : (HookCall.placesOf .enters calls).Sublist (start.node.preorder start.above)
  postorder : (HookCall.placesOf .visits calls).Sublist (start.node.postorder start.above)
  /-- A visit comes behind all calls for the place and for those below it. -/
  closes : calls.Pairwise HookCall.Closes
  parent : ∀ call ∈ calls, call.context.parent? = call.place.parent?
  functionDepth : ∀ call ∈ calls, call.context.functionDepth =
    (start.enclosing call.place).countP (·.node.kind.opensFunctionScope)
  script : ∀ call ∈ calls, call.hook = .visits → call.context.script =
    ((call.place :: start.enclosing call.place).find? (·.node.kind == .script)).map (·.node)

variable {accepts : Spot → Bool} {start : Spot}

lemma reaches_start (accepts : Spot → Bool) (start : Spot) : start.reaches accepts start := by
  rw [Spot.reaches, Spot.enclosing_start, List.all_nil]

lemma contextFrom_start (start : Spot) : start.contextFrom start = .start start.ancestors := by
  rw [Spot.contextFrom, Spot.enclosing_start]
  rfl

lemma script_visitOf (t : Spot) : (visitOf start t).context.script =
    ((t :: start.enclosing t).find? (·.node.kind == .script)).map (·.node) := by
  by_cases script : t.node.kind = .script
  · simp [visitOf, WalkContext.visiting, script]
  · simp [visitOf, WalkContext.visiting, Spot.contextFrom, script, beq_eq_false_iff_ne.mpr script]

lemma callsFit_hookCalls (accepts : Spot → Bool) (start : Spot) :
    CallsFit accepts start (start.node.hookCalls accepts start start.above) := by
  have enters := Node.placesOf_enters (Nat.le_refl start.above.length) (reaches_start accepts start)
  have visits := Node.placesOf_visits (Nat.le_refl start.above.length) (reaches_start accepts start)
  have listed (t : Spot) : t ∈ start.node.preorder start.above ↔ ∃ path, start.at? path = some t :=
    (Node.preorder_perm _ _).mem_iff.trans Node.mem_postorder
  have nodup : (start.node.preorder start.above).Nodup :=
    (Node.preorder_perm _ _).nodup_iff.mpr (Node.nodup_postorder _ _)
  have placed : ∀ call ∈ start.node.hookCalls accepts start start.above,
      call.Placed start start.above := Node.placed_of_mem_hookCalls _ _
  have asked (t : Spot) : t ∈ HookCall.placesOf .enters
      (start.node.hookCalls accepts start start.above) ↔
      (∃ path, start.at? path = some t) ∧ ∀ u ∈ start.enclosing t, accepts u := by
    rw [enters, List.mem_filter, listed, Spot.reaches, List.all_eq_true]
  refine ⟨?_, asked, fun t => ?_, ?_, ?_, Node.pairwise_hookCalls _ _, fun call h => ?_,
    fun call h => ?_, fun call h visited => ?_⟩
  · rintro (_ | _)
    · rw [enters]
      exact nodup.filter _
    · rw [visits]
      exact (Node.nodup_postorder _ _).filter _
  · rw [visits, enters, List.mem_filter, List.mem_filter, (Node.preorder_perm _ _).mem_iff,
      Spot.goesInto, Bool.and_eq_true, and_assoc]
  · rw [enters]
    exact List.filter_sublist
  · rw [visits]
    exact List.filter_sublist
  · obtain ⟨-, same⟩ := placed call h
    rcases same with same | same <;> rw [same] <;> exact List.head?_map
  · obtain ⟨-, same⟩ := placed call h
    rcases same with same | same <;> rw [same] <;> rfl
  · obtain ⟨-, same | same⟩ := placed call h
    · rw [same] at visited
      cases visited
    · rw [same]
      exact script_visitOf call.place

/-- **The hooks are called as they should be**, whatever they do to their state. A walk performs
calls that fit, and with a register it does the same and sets the register back. -/
theorem walk_performs (accepts : Spot → Bool) (start : Spot) :
    ∃ calls, CallsFit accepts start calls ∧ ∀ {σ : Type} (v : Visitor σ) (s : σ),
      let done := (Visitor.nextChild start.above, calls.foldl v.perform s)
      (v.choosing accepts).walk (.start start.ancestors) start.node (start.above, s) = done ∧
      (v.choosing accepts).walkWith start.ancestors start.node (⟨0, none⟩, start.above, s) =
        (⟨0, none⟩, done) := by
  refine ⟨_, callsFit_hookCalls accepts start, fun v s => ?_⟩
  have walked :
      (v.choosing accepts).walk (start.contextFrom start) start.node (start.above, s) = _ :=
    Visitor.walk_choosing (Nat.le_refl start.above.length) s
  rw [contextFrom_start] at walked
  refine ⟨walked, ?_⟩
  rw [Visitor.walkWith_eq]
  exact congrArg _ walked

end ModuleLint
