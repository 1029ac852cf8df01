import ModuleLint.Proofs.Syntax.Walk
import ModuleLint.Syntax.Path

/-!
The places of a tree in post-order, each after those below it.

Every place that a path leads to is listed. A walk that goes in everywhere does its visits along the
list, each in a context that the place alone determines.
-/

namespace ModuleLint

namespace Node

mutual

/-- The places in a tree below some ancestors. -/
def postorder (above : List (Node × Nat)) : Node → List Spot
  | ⟨kind, value, span, flags, children⟩ =>
    let n : Node := ⟨kind, value, span, flags, children⟩
    postorderFrom n above 0 children ++ [⟨n, above⟩]

/-- The places in some children of a parent, which have numbers from `i` on. -/
def postorderFrom (parent : Node) (above : List (Node × Nat)) (i : Nat) : List Node → List Spot
  | [] => []
  | c :: rest => c.postorder ((parent, i) :: above) ++ postorderFrom parent above (i + 1) rest

end

lemma postorder_eq (n : Node) (above : List (Node × Nat)) :
    n.postorder above = postorderFrom n above 0 n.children ++ [⟨n, above⟩] := by
  cases n
  rw [postorder]

lemma mem_postorderFrom {parent : Node} {above : List (Node × Nat)} {i : Nat} {l : List Node}
    {t : Spot} : t ∈ postorderFrom parent above i l ↔
      ∃ (j : Nat) (c : Node), l[j]? = some c ∧ t ∈ c.postorder ((parent, i + j) :: above) := by
  induction l generalizing i with
  | nil => simp [postorderFrom]
  | cons c rest ih =>
    rw [postorderFrom, List.mem_append, ih]
    constructor
    · rintro (h | ⟨j, d, hd, h⟩)
      · exact ⟨0, c, rfl, h⟩
      · refine ⟨j + 1, d, hd, ?_⟩
        rw [show i + (j + 1) = i + 1 + j by omega]
        exact h
    · rintro ⟨j, d, hd, h⟩
      cases j with
      | zero =>
        cases hd
        exact .inl h
      | succ j =>
        refine .inr ⟨j, d, hd, ?_⟩
        rw [show i + 1 + j = i + (j + 1) by omega]
        exact h

lemma at?_cons {s : Spot} {i : Nat} {path : List Nat} :
    s.at? (i :: path) = (s.child? i).bind (·.at? path) := rfl

/-- The places listed are those that paths lead to. -/
lemma mem_postorder {n : Node} {above : List (Node × Nat)} {t : Spot} :
    t ∈ n.postorder above ↔ ∃ path, (Spot.mk n above).at? path = some t := by
  induction n using Node.induction generalizing above with
  | step n ih =>
    rw [postorder_eq, List.mem_append, mem_postorderFrom, List.mem_singleton]
    constructor
    · rintro (⟨j, c, hc, h⟩ | rfl)
      · obtain ⟨path, hp⟩ := (ih c (List.mem_of_getElem? hc)).mp h
        refine ⟨j :: path, ?_⟩
        rw [at?_cons, Spot.child?, hc]
        rw [Nat.zero_add] at hp
        exact hp
      · exact ⟨[], rfl⟩
    · rintro ⟨path, hp⟩
      cases path with
      | nil =>
        cases hp
        exact .inr rfl
      | cons j path =>
        rw [at?_cons, Spot.child?] at hp
        cases hc : n.children[j]? with
        | none =>
          rw [hc] at hp
          cases hp
        | some c =>
          rw [hc] at hp
          refine .inl ⟨j, c, hc, (ih c (List.mem_of_getElem? hc)).mpr ⟨path, ?_⟩⟩
          rw [Nat.zero_add]
          exact hp

/-- A place is below all ancestors that its tree is given. -/
lemma suffix_of_mem_postorder {n : Node} {above : List (Node × Nat)} {t : Spot}
    (h : t ∈ n.postorder above) : above <:+ t.above := by
  induction n using Node.induction generalizing above with
  | step n ih =>
    rw [postorder_eq, List.mem_append, mem_postorderFrom, List.mem_singleton] at h
    rcases h with ⟨j, c, hc, h⟩ | rfl
    · exact (List.suffix_cons _ _).trans (ih c (List.mem_of_getElem? hc) h)
    · exact List.suffix_rfl

/-- A place is below one child of a parent at most. -/
lemma child_unique {n m : Node} {above l : List (Node × Nat)} {i j : Nat}
    (hi : (n, i) :: above <:+ l) (hj : (m, j) :: above <:+ l) : i = j := by
  have same := (List.suffix_of_suffix_length_le hi hj (by simp)).eq_of_length (by simp)
  exact (Prod.ext_iff.mp (List.cons.inj same).1).2

lemma nodup_postorderFrom {n : Node} {above : List (Node × Nat)} {i : Nat} {l : List Node}
    (hl : ∀ c ∈ l, ∀ above, (c.postorder above).Nodup) :
    (postorderFrom n above i l).Nodup := by
  induction l generalizing i with
  | nil => exact List.nodup_nil
  | cons c rest ih =>
    obtain ⟨first, others⟩ := List.forall_mem_cons.mp hl
    rw [postorderFrom, List.nodup_append]
    refine ⟨first _, ih others, fun t ht u hu same => ?_⟩
    obtain ⟨j, d, -, hd⟩ := mem_postorderFrom.mp hu
    rw [← same] at hd
    have number := child_unique (suffix_of_mem_postorder ht) (suffix_of_mem_postorder hd)
    omega

/-- Each place is listed once. -/
lemma nodup_postorder (n : Node) (above : List (Node × Nat)) : (n.postorder above).Nodup := by
  induction n using Node.induction generalizing above with
  | step n ih =>
    rw [postorder_eq, List.nodup_append]
    refine ⟨nodup_postorderFrom ih, by simp, fun t ht u hu same => ?_⟩
    obtain ⟨j, d, -, hd⟩ := mem_postorderFrom.mp ht
    have longer := (suffix_of_mem_postorder hd).length_le
    rw [same, List.mem_singleton.mp hu, List.length_cons] at longer
    exact Nat.lt_irrefl _ longer

end Node

/-! ### Walks -/

namespace Spot

def ancestors (s : Spot) : List Node := s.above.map (·.1)

/-- The context in which a walk from the top of the tree goes to a place. -/
def context (s : Spot) : WalkContext where
  ancestors := s.ancestors
  functionDepth := s.ancestors.countP (·.kind.opensFunctionScope)
  script := s.ancestors.find? (·.kind == .script)

lemma context_child (n c : Node) (above : List (Node × Nat)) (i : Nat) :
    (Spot.mk n above).context.inside n = (Spot.mk c ((n, i) :: above)).context := by
  unfold WalkContext.inside context ancestors WalkContext.visiting
  rw [List.map_cons, List.countP_cons, List.find?_cons]
  congr 1
  · cases n.kind.opensFunctionScope <;> rfl
  · by_cases h : n.kind = .script
    · rw [if_pos h, beq_iff_eq.mpr h]
    · rw [if_neg h, beq_eq_false_iff_ne.mpr h]

end Spot

namespace Visitor

variable {σ : Type} (v : Visitor σ)

/-- What is done at a place. -/
def visitAt (t : Spot) (s : σ) : σ := v.visit (t.context.visiting t.node) t.node s

/-- Whether a visitor goes into a node whatever its state is. -/
def Passes (n : Node) : Prop := ∀ c s, v.enters c n s = (true, s)

lemma walkAll_eq_foldl {n : Node} {above : List (Node × Nat)} {l : List Node}
    (hl : ∀ c ∈ l, ∀ above s, (∀ t ∈ c.postorder above, v.Passes t.node) →
      v.walk (Spot.mk c above).context c s = (c.postorder above).foldl (fun s t => v.visitAt t s) s)
    (i : Nat) (s : σ) (h : ∀ t ∈ Node.postorderFrom n above i l, v.Passes t.node) :
    v.walkAll ((Spot.mk n above).context.inside n) l s =
      (Node.postorderFrom n above i l).foldl (fun s t => v.visitAt t s) s := by
  induction l generalizing i s with
  | nil => rfl
  | cons c rest ih =>
    rw [Node.postorderFrom] at h ⊢
    rw [walkAll, Spot.context_child n c above i, List.foldl_append]
    rw [hl c List.mem_cons_self _ s fun t ht => h t (List.mem_append_left _ ht)]
    rw [← Spot.context_child n c above i]
    exact ih (fun d hd => hl d (List.mem_cons_of_mem c hd)) _ _
      fun t ht => h t (List.mem_append_right _ ht)

/-- A walk that goes in everywhere visits the places in post-order. -/
lemma walk_eq_foldl (n : Node) (above : List (Node × Nat)) (s : σ)
    (h : ∀ t ∈ n.postorder above, v.Passes t.node) :
    v.walk (Spot.mk n above).context n s =
      (n.postorder above).foldl (fun s t => v.visitAt t s) s := by
  induction n using Node.induction generalizing above s with
  | step n ih =>
    rw [Node.postorder_eq] at h ⊢
    have passes : v.Passes n := h ⟨n, above⟩ (List.mem_append_right _ List.mem_cons_self)
    rw [List.foldl_append, walk_of_enters (passes _ s)]
    rw [v.walkAll_eq_foldl ih 0 s fun t ht => h t (List.mem_append_left _ ht)]
    rfl

end Visitor

end ModuleLint
