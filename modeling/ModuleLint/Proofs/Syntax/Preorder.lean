import ModuleLint.Proofs.Syntax.Postorder

/-!
The places of a tree in pre-order, each before those below it.

Both orders list the same places. A walk starts at some place, and only the places above another one
up to that start are within it.
-/

namespace ModuleLint

namespace Node

mutual

/-- The places in a tree below some ancestors. -/
def preorder (above : List (Node × Nat)) : Node → List Spot
  | ⟨kind, value, span, flags, children⟩ =>
    let n : Node := ⟨kind, value, span, flags, children⟩
    ⟨n, above⟩ :: preorderFrom n above 0 children

/-- The places in some children of a parent, which have numbers from `i` on. -/
def preorderFrom (parent : Node) (above : List (Node × Nat)) (i : Nat) : List Node → List Spot
  | [] => []
  | c :: rest => c.preorder ((parent, i) :: above) ++ preorderFrom parent above (i + 1) rest

end

lemma preorder_eq (n : Node) (above : List (Node × Nat)) :
    n.preorder above = ⟨n, above⟩ :: preorderFrom n above 0 n.children := by
  cases n
  rw [preorder]

lemma preorderFrom_eq_flatMap (n : Node) (above : List (Node × Nat)) (i : Nat) (l : List Node) :
    preorderFrom n above i l = (l.zipIdx i).flatMap fun (c, j) => c.preorder ((n, j) :: above) := by
  induction l generalizing i with
  | nil => rfl
  | cons c rest ih =>
    rw [preorderFrom, List.zipIdx_cons, List.flatMap_cons, ih]

lemma postorderFrom_eq_flatMap (n : Node) (above : List (Node × Nat)) (i : Nat) (l : List Node) :
    postorderFrom n above i l =
      (l.zipIdx i).flatMap fun (c, j) => c.postorder ((n, j) :: above) := by
  induction l generalizing i with
  | nil => rfl
  | cons c rest ih =>
    rw [postorderFrom, List.zipIdx_cons, List.flatMap_cons, ih]

lemma preorderFrom_perm {n : Node} {above : List (Node × Nat)} {i : Nat} {l : List Node}
    (hl : ∀ c ∈ l, ∀ above, (c.preorder above).Perm (c.postorder above)) :
    (preorderFrom n above i l).Perm (postorderFrom n above i l) := by
  induction l generalizing i with
  | nil => exact .nil
  | cons c rest ih =>
    obtain ⟨first, others⟩ := List.forall_mem_cons.mp hl
    rw [preorderFrom, postorderFrom]
    exact (first _).append (ih others)

lemma preorder_perm (n : Node) (above : List (Node × Nat)) :
    (n.preorder above).Perm (n.postorder above) := by
  induction n using Node.induction generalizing above with
  | step n ih =>
    rw [preorder_eq, postorder_eq]
    exact ((preorderFrom_perm ih).cons _).trans (List.perm_append_singleton _ _).symm

end Node

/-! ### Places within a walk -/

namespace Spot

/-- The places above a node, nearest first. -/
def containers : List (Node × Nat) → List Spot
  | [] => []
  | (n, _) :: above => ⟨n, above⟩ :: containers above

/-- The places above `t` that are within a walk from `start`, nearest first. -/
def enclosing (start t : Spot) : List Spot :=
  (containers t.above).take (t.above.length - start.above.length)

variable {start : Spot} {n : Node} {above : List (Node × Nat)}

lemma enclosing_start (start : Spot) : start.enclosing start = [] := by
  rw [enclosing, Nat.sub_self, List.take_zero]

lemma enclosing_child (h : start.above.length ≤ above.length) (n c : Node) (i : Nat) :
    start.enclosing ⟨c, (n, i) :: above⟩ = ⟨n, above⟩ :: start.enclosing ⟨n, above⟩ := by
  rw [enclosing, List.length_cons, Nat.succ_sub h, containers, List.take_succ_cons]
  rfl

/-- A place encloses all places below it. -/
lemma mem_enclosing {t : Spot} {i : Nat} (h : start.above.length ≤ above.length)
    (ht : (n, i) :: above <:+ t.above) : ⟨n, above⟩ ∈ start.enclosing t := by
  obtain ⟨m, l⟩ := t
  obtain ⟨inner, rfl⟩ := ht
  induction inner generalizing m with
  | nil =>
    rw [List.nil_append, enclosing_child h]
    exact List.mem_cons_self
  | cons p inner ih =>
    have longer : start.above.length ≤ (inner ++ (n, i) :: above).length := by
      rw [List.length_append, List.length_cons]
      omega
    rw [List.cons_append, enclosing_child longer]
    exact List.mem_cons_of_mem _ (ih p.1)

end Spot

end ModuleLint
