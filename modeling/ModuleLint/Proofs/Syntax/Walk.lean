import Mathlib.Tactic.Common
import ModuleLint.Syntax.Walk

/-!
Walks, node by node.

A proof about a walk goes by induction on the tree. Contexts that no step of a visitor tells apart
lead to the same walk.
-/

namespace ModuleLint

/-- What holds of a node if it does of its children, holds of every node. -/
lemma Node.induction {P : Node → Prop} (step : ∀ n : Node, (∀ c ∈ n.children, P c) → P n)
    (n : Node) : P n :=
  @Node.rec P (fun l => ∀ c ∈ l, P c) (fun _ _ _ _ _ below => step _ below) (by simp)
    (fun _ _ first rest => List.forall_mem_cons.mpr ⟨first, rest⟩) n

namespace Visitor

variable {σ : Type} {v : Visitor σ} {c c' : WalkContext} {n : Node} {s t : σ}

/-- A node that is gone into is visited after its children. -/
lemma walk_of_enters (h : v.enters c n s = (true, t)) :
    v.walk c n s = v.visit (c.visiting n) n (v.walkAll (c.inside n) n.children t) := by
  cases n
  rw [walk, h]

lemma walk_of_refuses (h : v.enters c n s = (false, t)) : v.walk c n s = t := by
  cases n
  rw [walk, h]

lemma walkAll_congr {l : List Node} (h : ∀ m ∈ l, ∀ s, v.walk c m s = v.walk c' m s) (s : σ) :
    v.walkAll c l s = v.walkAll c' l s := by
  induction l generalizing s with
  | nil => rfl
  | cons m l ih =>
    rw [walkAll, walkAll, h m List.mem_cons_self]
    exact ih (fun k hk => h k (List.mem_cons_of_mem m hk)) _

/-- Contexts that are told apart neither before nor after the children of a node. -/
lemma walk_congr_of_children (enters : v.enters c n s = v.enters c' n s)
    (visit : ∀ s, v.visit (c.visiting n) n s = v.visit (c'.visiting n) n s)
    (below : ∀ m ∈ n.children, ∀ s, v.walk (c.inside n) m s = v.walk (c'.inside n) m s) :
    v.walk c n s = v.walk c' n s := by
  cases he : v.enters c' n s with
  | mk goes t =>
    rw [he] at enters
    cases goes with
    | false => rw [walk_of_refuses he, walk_of_refuses enters]
    | true => rw [walk_of_enters he, walk_of_enters enters, walkAll_congr below, visit]

/-- Contexts that no step tells apart. -/
lemma walk_congr {R : WalkContext → WalkContext → Prop}
    (enters : ∀ {c c' n s}, R c c' → v.enters c n s = v.enters c' n s)
    (visit : ∀ {c c' n s}, R c c' → v.visit (c.visiting n) n s = v.visit (c'.visiting n) n s)
    (inside : ∀ {c c' n}, R c c' → R (c.inside n) (c'.inside n)) (n : Node) (h : R c c') (s : σ) :
    v.walk c n s = v.walk c' n s := by
  induction n using Node.induction generalizing c c' s with
  | step n ih =>
    exact walk_congr_of_children (enters h) (fun s => visit h) fun m hm s => ih m hm (inside h) s

/-- What each step keeps, a walk keeps. -/
lemma walk_keeps {P : σ → Prop} (enters : ∀ c n s, P s → P (v.enters c n s).2)
    (visit : ∀ c n s, P s → P (v.visit c n s)) (c : WalkContext) (n : Node) (h : P s) :
    P (v.walk c n s) := by
  induction n using Node.induction generalizing c s with
  | step n ih =>
    have all (c : WalkContext) : ∀ l : List Node, (∀ m ∈ l, m ∈ n.children) → ∀ s, P s →
        P (v.walkAll c l s) := by
      intro l
      induction l with
      | nil => exact fun _ s hs => hs
      | cons m l ihl =>
        intro hl s hs
        rw [walkAll]
        refine ihl (fun k hk => hl k (List.mem_cons_of_mem m hk)) _ ?_
        exact ih m (hl m List.mem_cons_self) c hs
    have entered := enters c n s h
    cases he : v.enters c n s with
    | mk goes t =>
      rw [he] at entered
      cases goes with
      | false => rwa [walk_of_refuses he]
      | true =>
        rw [walk_of_enters he]
        exact visit _ n _ (all _ _ (fun m hm => hm) t entered)

end Visitor

end ModuleLint
