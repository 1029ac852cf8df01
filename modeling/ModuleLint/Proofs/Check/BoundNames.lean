import ModuleLint.Check.Bindings
import ModuleLint.Proofs.Grammar.ScriptShape
import ModuleLint.Proofs.Syntax.Postorder

/-!
The names that a declaration binds.

A name is bound where every step down from the declaration is one that binding passes through: to a
declarator, to the pattern and not the initializer, to the value of a key, to the target before its
default value. What counts the bindings of a declaration never looks at places; it finds as many as
there are places of bound names.
-/

namespace ModuleLint

/-- Whether binding passes from a node of a kind to its child with a number. -/
def NodeKind.bindsChild : NodeKind → Nat → Bool
  | .varDecl, _ | .letDecl, _ | .constDecl, _ | .objectPattern, _ | .arrayPattern, _ => true
  | .destructuring, i | .stringKey, i | .defaultValue, i | .rest, i => i == 0
  | .computedProp, i => i == 1
  | _, _ => false

lemma NodeKind.bindsChild_declaration {kind : NodeKind} (h : kind.isDeclaration) (i : Nat) :
    kind.bindsChild i := by
  cases kind <;> first | rfl | cases h

/-- Binding passes through all nodes above a place. -/
def Spot.isInBinding (t : Spot) : Bool := t.above.all fun (n, i) => n.kind.bindsChild i

/-- A name at a place to which binding passes. -/
def Spot.isBound (t : Spot) : Bool := t.node.kind == .name && t.isInBinding

namespace Node

variable {n c : Node} {above : List (Node × Nat)} {i : Nat} {l : List Node}

/-- The number of bound names in a tree below some ancestors. -/
def boundNames (n : Node) (above : List (Node × Nat)) : Nat :=
  (n.postorder above).countP Spot.isBound

/-- The number of bound names in some children of a parent, with numbers from `i` on. -/
def boundNamesFrom (parent : Node) (above : List (Node × Nat)) (i : Nat) (l : List Node) : Nat :=
  (postorderFrom parent above i l).countP Spot.isBound

lemma boundNames_eq (n : Node) (above : List (Node × Nat)) :
    n.boundNames above = n.boundNamesFrom above 0 n.children +
      if (Spot.mk n above).isBound then 1 else 0 := by
  rw [boundNames, postorder_eq, List.countP_append, List.countP_singleton]
  rfl

lemma boundNamesFrom_nil : boundNamesFrom n above i [] = 0 := rfl

lemma boundNamesFrom_cons : boundNamesFrom n above i (c :: l) =
    c.boundNames ((n, i) :: above) + boundNamesFrom n above (i + 1) l := by
  rw [boundNamesFrom, postorderFrom, List.countP_append]
  rfl

/-- No name is bound below a place to which binding does not pass. -/
lemma boundNames_outside (h : (Spot.mk n above).isInBinding = false) : n.boundNames above = 0 := by
  refine List.countP_eq_zero.mpr fun t ht bound => ?_
  obtain ⟨inner, h'⟩ := suffix_of_mem_postorder ht
  have passes : t.isInBinding := (Bool.and_eq_true_iff.mp bound).2
  rw [Spot.isInBinding, ← h', List.all_append] at passes
  rw [Spot.isInBinding, (Bool.and_eq_true_iff.mp passes).2] at h
  cases h

lemma boundNames_beside (h : n.kind.bindsChild i = false) : c.boundNames ((n, i) :: above) = 0 :=
  boundNames_outside (by simp [Spot.isInBinding, h])

/-! ### Patterns -/

lemma entryBindings_cons (c : Node) (l : List Node) :
    entryBindings (c :: l) = entryBindings [c] + entryBindings l := by
  obtain ⟨kind, value, span, flags, children⟩ := c
  cases kind with
  | stringKey => cases children <;> simp [entryBindings]
  | computedProp => rcases children with - | ⟨a, - | ⟨b, children⟩⟩ <;> simp [entryBindings]
  | _ => simp [entryBindings]

lemma targetBindings_name (h : n.kind = .name) : n.targetBindings = 1 := by
  cases n
  cases h
  rw [targetBindings]

/-- A target with a default value or dots, and the pattern of a declarator, bind what comes
first. -/
lemma targetBindings_first (h : n.kind = .defaultValue ∨ n.kind = .rest)
    (hl : n.children = c :: l) : n.targetBindings = c.targetBindings := by
  cases n
  cases hl
  rcases h with h | h <;> cases h <;> rw [targetBindings]

lemma targetBindings_pattern (h : n.IsPattern) : n.targetBindings = entryBindings n.children := by
  cases n
  rcases h with h | h <;> cases h <;> rw [targetBindings]

/-- Keys apart, an entry is a target; a hole binds nothing. -/
lemma entryBindings_target (key : n.kind ≠ .stringKey) (computed : n.kind ≠ .computedProp) :
    entryBindings [n] = n.targetBindings := by
  obtain ⟨kind, value, span, flags, children⟩ := n
  cases kind with
  | stringKey => exact absurd rfl key
  | computedProp => exact absurd rfl computed
  | empty => simp [entryBindings, targetBindings]
  | _ => simp [entryBindings]

lemma entryBindings_key (h : n.kind = .stringKey) (hl : n.children = [c]) :
    entryBindings [n] = c.targetBindings := by
  cases n
  cases h
  cases hl
  simp [entryBindings]

lemma entryBindings_computed {key : Node} (h : n.kind = .computedProp)
    (hl : n.children = [key, c]) : entryBindings [n] = c.targetBindings := by
  cases n
  cases h
  cases hl
  simp [entryBindings]

lemma entryBindings_hole (h : n.kind = .empty) : entryBindings [n] = 0 := by
  cases n
  cases h
  simp [entryBindings]

/-- What stands in a pattern: an entry, an element or a hole. -/
def IsPatternPart (n : Node) : Prop := n.IsEntry ∨ n.IsParameter ∨ n.kind = .empty

/-- In a part of a pattern, bound names are counted where it is a target and where it is an
entry. -/
def CountsNames (n : Node) : Prop :=
  ∀ above, (Spot.mk n above).isInBinding →
    (n.IsParameter → n.boundNames above = n.targetBindings) ∧
      (n.IsPatternPart → n.boundNames above = entryBindings [n])

lemma boundNamesFrom_entries (all : ∀ j, n.kind.bindsChild j)
    (within : (Spot.mk n above).isInBinding)
    (hl : ∀ c ∈ l, c.CountsNames ∧ c.IsPatternPart) :
    boundNamesFrom n above i l = entryBindings l := by
  induction l generalizing i with
  | nil => rfl
  | cons c l ih =>
    obtain ⟨⟨counts, part⟩, rest⟩ := List.forall_mem_cons.mp hl
    have passes : (Spot.mk c ((n, i) :: above)).isInBinding := by
      simpa [Spot.isInBinding, all] using within
    rw [boundNamesFrom_cons, entryBindings_cons, ih rest, (counts _ passes).2 part]

lemma InOrder.exists_first {C : Node → Prop} {classes : List (Node → Prop)}
    (h : InOrder (C :: classes) l) : ∃ c m, l = c :: m ∧ C c := by
  cases l with
  | nil => cases h
  | cons c m => exact ⟨c, m, rfl, h.1⟩

lemma boundNamesFrom_beside (h : ∀ j, i ≤ j → n.kind.bindsChild j = false) :
    boundNamesFrom n above i l = 0 := by
  induction l generalizing i with
  | nil => rfl
  | cons c l ih =>
    rw [boundNamesFrom_cons, boundNames_beside (h i (Nat.le_refl i)),
      ih fun j hj => h j (Nat.le_of_succ_le hj)]

/-- Where binding passes to the first child alone, only its names are bound. -/
lemma boundNames_first (h : ∀ j, n.kind.bindsChild j = (j == 0)) (hl : n.children = c :: l) :
    n.boundNames above = c.boundNames ((n, 0) :: above) := by
  have rest : boundNamesFrom n above 1 l = 0 :=
    boundNamesFrom_beside fun j hj => by rw [h, beq_eq_false_iff_ne]; omega
  have noName : n.kind ≠ .name := by
    intro hk
    have zero := h 0
    rw [hk] at zero
    cases zero
  rw [boundNames_eq, hl, boundNamesFrom_cons, rest]
  simp [Spot.isBound, noName]

lemma isInBinding_child (within : (Spot.mk n above).isInBinding) (hi : n.kind.bindsChild i) :
    (Spot.mk c ((n, i) :: above)).isInBinding := by
  simpa [Spot.isInBinding, hi] using within

/-- Default values, dots, keys and declarators with a pattern bind what comes first in them. -/
lemma boundNames_head (within : (Spot.mk n above).isInBinding)
    (h : ∀ j, n.kind.bindsChild j = (j == 0)) (hl : n.children = c :: l) (counts : c.CountsNames)
    (hc : c.IsParameter) : n.boundNames above = c.targetBindings := by
  rw [boundNames_first h hl]
  exact (counts _ (isInBinding_child within (h 0))).1 hc

lemma boundNames_pattern (within : (Spot.mk n above).isInBinding) (hp : n.IsPattern)
    (fit : ChildrenFit n.kind n.children) (counts : ∀ c ∈ n.children, c.CountsNames) :
    n.boundNames above = n.targetBindings := by
  have all : (∀ j, n.kind.bindsChild j) ∧ n.kind ≠ .name ∧ ∀ c ∈ n.children, c.IsPatternPart := by
    rcases hp with hk | hk <;> rw [hk] at fit ⊢
    · exact ⟨fun _ => rfl, nofun, fun c hc => .inl (fit c hc)⟩
    · exact ⟨fun _ => rfl, nofun, fun c hc => .inr (fit c hc)⟩
  obtain ⟨passes, noName, parts⟩ := all
  rw [boundNames_eq, targetBindings_pattern hp,
    boundNamesFrom_entries passes within fun c hc => ⟨counts c hc, parts c hc⟩]
  simp [Spot.isBound, noName]

lemma boundNames_parameter (within : (Spot.mk n above).isInBinding) (h : n.IsParameter)
    (fit : ChildrenFit n.kind n.children) (counts : ∀ c ∈ n.children, c.CountsNames) :
    n.boundNames above = n.targetBindings := by
  rcases h with ((⟨hk, hl⟩ | hp) | hk) | hk
  · rw [boundNames_eq, hl, boundNamesFrom_nil, targetBindings_name hk]
    simp [Spot.isBound, hk, within]
  · exact boundNames_pattern within hp fit counts
  · rw [hk] at fit
    obtain ⟨target, l, hl, ht⟩ := fit.exists_first
    rw [targetBindings_first (.inl hk) hl]
    exact boundNames_head within (fun _ => by rw [hk]; rfl) hl (counts _ (by simp [hl]))
      (.inl (.inl ht))
  · rw [hk] at fit
    obtain ⟨target, l, hl, ht⟩ := fit.exists_first
    rw [targetBindings_first (.inr hk) hl]
    exact boundNames_head within (fun _ => by rw [hk]; rfl) hl (counts _ (by simp [hl]))
      (.inl (.inl ht))

lemma IsParameter.isNot (h : n.IsParameter) : n.kind ≠ .stringKey ∧ n.kind ≠ .computedProp := by
  rcases h with ((⟨h, -⟩ | h | h) | h) | h <;> simp [h]

lemma boundNames_part (within : (Spot.mk n above).isInBinding) (h : n.IsPatternPart)
    (fit : ChildrenFit n.kind n.children) (counts : ∀ c ∈ n.children, c.CountsNames) :
    n.boundNames above = entryBindings [n] := by
  have parameter (h : n.IsParameter) : n.boundNames above = entryBindings [n] := by
    rw [entryBindings_target h.isNot.1 h.isNot.2]
    exact boundNames_parameter within h fit counts
  rcases h with (hk | ⟨hk, value, hl, hv⟩ | ⟨hk, key, value, hl, hv⟩) | h | hk
  · exact parameter (.inr hk)
  · rw [entryBindings_key hk hl]
    exact boundNames_head within (fun _ => by rw [hk]; rfl) hl (counts _ (by simp [hl])) (.inl hv)
  · have passes : (Spot.mk value ((n, 1) :: above)).isInBinding :=
      isInBinding_child within (by rw [hk]; rfl)
    rw [boundNames_eq, hl, boundNamesFrom_cons, boundNamesFrom_cons, boundNamesFrom_nil,
      boundNames_beside (by rw [hk]; rfl), (counts value (by simp [hl]) _ passes).1 (.inl hv),
      entryBindings_computed hk hl]
    simp [Spot.isBound, hk]
  · exact parameter h
  · rw [hk] at fit
    have noChildren : n.children = [] := by
      cases hl : n.children with
      | nil => rfl
      | cons c l => rw [hl] at fit; cases fit
    rw [boundNames_eq, noChildren, boundNamesFrom_nil, entryBindings_hole hk]
    simp [Spot.isBound, hk]

lemma countsNames (wf : n.WellFormed) : n.CountsNames := by
  induction n using Node.induction with
  | step n ih =>
    have counts : ∀ c ∈ n.children, c.CountsNames := fun c hc => ih c hc (wf.child hc)
    exact fun above within => ⟨fun h => boundNames_parameter within h wf.fit counts,
      fun h => boundNames_part within h wf.fit counts⟩

/-! ### Declarations -/

lemma boundNames_declarator (within : (Spot.mk n above).isInBinding) (h : n.IsDeclarator)
    (wf : n.WellFormed) : n.boundNames above = n.declaratorBindings := by
  have fit := wf.fit
  rcases h with hk | hk
  · -- binding does not pass into the initializer
    have initializer : boundNamesFrom n above 0 n.children = 0 :=
      boundNamesFrom_beside fun _ _ => by rw [hk]; rfl
    rw [boundNames_eq, initializer, declaratorBindings, hk]
    simp [Spot.isBound, hk, within]
  · rw [hk] at fit
    obtain ⟨pattern, l, hl, hp⟩ : ∃ pattern l, n.children = pattern :: l ∧ pattern.IsPattern :=
      fit.elim (·.exists_first) (·.exists_first)
    rw [declaratorBindings, hk, hl]
    exact boundNames_head within (fun _ => by rw [hk]; rfl) hl
      (countsNames (wf.child (by simp [hl]))) (.inl (.inl (.inr hp)))

lemma boundNamesFrom_declarators (hk : n.kind.isDeclaration)
    (hl : ∀ d ∈ l, d.IsDeclarator ∧ d.WellFormed) :
    boundNamesFrom n [] i l = l.foldr (fun d sum => d.declaratorBindings + sum) 0 := by
  induction l generalizing i with
  | nil => rfl
  | cons d l ih =>
    obtain ⟨⟨declarator, wf⟩, rest⟩ := List.forall_mem_cons.mp hl
    have passes : (Spot.mk d [(n, i)]).isInBinding :=
      isInBinding_child rfl (NodeKind.bindsChild_declaration hk i)
    rw [boundNamesFrom_cons, boundNames_declarator passes declarator wf, ih rest]
    rfl

lemma bindings_eq (hk : n.kind.isDeclaration) (wf : n.WellFormed) :
    n.bindings = n.boundNames [] := by
  have fit := wf.fit
  have noName : n.kind ≠ .name := by
    intro h
    rw [h] at hk
    cases hk
  have declarators : ∀ d ∈ n.children, d.IsDeclarator := by
    cases kind : n.kind <;> rw [kind] at hk fit <;>
      first | exact Headed.each fit (fun _ => id) (fun _ => id) | cases hk
  rw [boundNames_eq, boundNamesFrom_declarators hk fun d hd => ⟨declarators d hd, wf.child hd⟩]
  simp [Spot.isBound, noName, bindings]

/-- Below a well-formed node every node is well formed. -/
lemma WellFormed.at? {s t : Spot} {path : List Nat} (wf : s.node.WellFormed)
    (ht : s.at? path = some t) : t.node.WellFormed := by
  refine Spot.at?_keeps (P := (·.node.WellFormed)) (fun s i t wf ht => ?_) wf ht
  exact wf.child (Spot.child?_eq_some ht).1

end Node

namespace Grammar

/-- **A declaration binds as many names as there are places of bound names in it**, in every script
that is read. The list holds each of these places once. -/
theorem script_bindings {name : Bytes} {tokens : List Token} {n : Node}
    (h : script name tokens = .ok n) {path : List Nat} {declaration : Spot}
    (hs : (Spot.root n).at? path = some declaration)
    (hk : declaration.node.kind.isDeclaration) :
    ∃ bound : List Spot, declaration.node.bindings = bound.length ∧ bound.Nodup ∧
      ∀ t, t ∈ bound ↔ t.isBound ∧ ∃ path, (Spot.root declaration.node).at? path = some t := by
  have wf : declaration.node.WellFormed := Node.WellFormed.at? (s := .root n) (script_as h).2 hs
  refine ⟨(declaration.node.postorder []).filter Spot.isBound, ?_, ?_, fun t => ?_⟩
  · rw [Node.bindings_eq hk wf, Node.boundNames, List.countP_eq_length_filter]
  · exact (Node.nodup_postorder _ _).filter _
  · rw [List.mem_filter, Node.mem_postorder, and_comm]
    rfl

/-- In `var {k: [a, , b = c]} = d;` the names `a` and `b` are bound. -/
theorem script_bindings_nested :
    let tokens : List Token :=
      [TokenKind.kwVar, .lbrace, .identifier, .colon, .lbracket, .identifier, .comma, .comma,
        .identifier, .assign, .identifier, .rbracket, .rbrace, .assign, .identifier, .semi,
        .eof].map (⟨·, Span.none, [], [], false⟩)
    ∃ n declaration, script [] tokens = .ok n ∧ (Spot.root n).at? [0] = some declaration ∧
      declaration.node.bindings = 2 ∧ ∃ bound : List Spot, bound.length = 2 ∧ bound.Nodup ∧
        ∀ t, t ∈ bound ↔ t.isBound ∧ ∃ path, (Spot.root declaration.node).at? path = some t := by
  intro tokens
  have found : (script [] tokens).toOption.any fun n => ((Spot.root n).at? [0]).any fun t =>
      t.node.kind.isDeclaration && t.node.bindings == 2 := by decide +kernel
  cases accepted : script [] tokens with
  | error faults =>
    rw [accepted] at found
    cases found
  | ok n =>
    rw [accepted] at found
    cases place : (Spot.root n).at? [0] with
    | none =>
      rw [Except.toOption, Option.any_some, place] at found
      cases found
    | some declaration =>
      rw [Except.toOption, Option.any_some, place, Option.any_some, Bool.and_eq_true_iff] at found
      have two : declaration.node.bindings = 2 := beq_iff_eq.mp found.2
      obtain ⟨bound, count, nodup, places⟩ := script_bindings accepted place found.1
      exact ⟨n, declaration, rfl, place, two, bound, count.symm.trans two, nodup, places⟩

end Grammar

end ModuleLint
