import ModuleLint.Proofs.Syntax.Shape

/-!
The number and the kinds of children, read off the kinds of a node and its parent.

`Node.Arranged` is what a reader of a tree may rely on without a look at the grammar: how many
children each kind of node has, what they are where they have a fixed place, and where names with an
initializer, keys without a value and scripts may stand. In a well-formed script every node is
arranged.
-/

namespace ModuleLint

/-- The least and the greatest number of children of a node of a kind, if there is a greatest
one. -/
def NodeKind.childCount : NodeKind → Nat × Option Nat
  | .call | .new | .switchStmt | .varDecl | .letDecl | .constDecl => (1, none)
  | .getProp | .unary | .update | .spread | .rest | .throwStmt | .exprStmt | .label
  | .memberFunction | .defaultClause => (1, some 1)
  | .destructuring => (1, some 2)
  | .getElem | .assign | .assignOp | .binary | .comma | .defaultValue | .computedProp | .whileStmt
  | .doWhileStmt | .caseClause | .catchClause => (2, some 2)
  | .ifStmt | .tryStmt => (2, some 3)
  | .conditional | .function | .classDef | .forInStmt | .forOfStmt => (3, some 3)
  | .forStmt => (4, some 4)
  | .returnStmt | .memberField | .name | .stringKey => (0, some 1)
  | .root | .script | .block | .objectPattern | .arrayPattern | .paramList | .classMembers
  | .arrayLit | .objectLit => (0, none)
  | .empty | .breakStmt | .continueStmt | .thisExpr | .superExpr | .stringLit | .numberLit
  | .trueLit | .falseLit | .nullLit | .regexLit | .templateLit => (0, some 0)

namespace Node

/-- What holds of a node below `parent`, or at the top. -/
structure Arranged (n : Node) (parent : Option Node) : Prop where
  atLeast : n.kind.childCount.1 ≤ n.children.length
  atMost : ∀ most ∈ n.kind.childCount.2, n.children.length ≤ most
  /-- A function has a name, parameters and a body, which may be an expression. -/
  function : n.kind = .function → ∃ name parameters body,
    n.children = [name, parameters, body] ∧ name.kind = .name ∧ parameters.kind = .paramList ∧
      (body.kind = .block ∨ body.IsExpression)
  /-- A class has a name, a base and members, the first two perhaps empty. -/
  classDef : n.kind = .classDef → ∃ name base members,
    n.children = [name, base, members] ∧ (name.kind = .name ∨ name.kind = .empty) ∧
      base.IsExpressionOrEmpty ∧ members.kind = .classMembers
  /-- A declaration has names and destructurings, each with at most one initializer. -/
  declaration : n.kind.isDeclaration → ∀ d ∈ n.children,
    (d.kind = .name ∧ d.children.length ≤ 1) ∨
      (d.kind = .destructuring ∧ ∃ pattern value,
        d.children = pattern :: value ∧ pattern.IsPattern ∧ value.length ≤ 1)
  /-- Only a declared name has an initializer. -/
  name : n.kind = .name → n.children ≠ [] → ∃ p ∈ parent, p.kind.isDeclaration
  /-- Keys stand in object literals and patterns, and in a pattern they have a value. -/
  stringKey : n.kind = .stringKey → ∃ p ∈ parent,
    p.kind = .objectLit ∨ (p.kind = .objectPattern ∧ n.children.length = 1)
  script : n.kind = .script → parent = none

/-! ### Numbers of children -/

section Counts

variable {C D : Node → Prop} {classes : List (Node → Prop)} {l : List Node}

lemma InOrder.length_eq (h : InOrder classes l) : l.length = classes.length := by
  induction classes generalizing l with
  | nil => cases l with
    | nil => rfl
    | cons n l => cases h
  | cons C classes ih => cases l with
    | nil => cases h
    | cons n l => rw [List.length_cons, List.length_cons, ih h.2]

/-- A number of children is within bounds, the upper one of which may be missing. -/
def Within (bounds : Nat × Option Nat) (l : List Node) : Prop :=
  bounds.1 ≤ l.length ∧ ∀ most ∈ bounds.2, l.length ≤ most

lemma InOrder.within (h : InOrder classes l) : Within (classes.length, some classes.length) l := by
  have := h.length_eq
  exact ⟨by omega, by simp; omega⟩

/-- The last of some children may be left out. -/
lemma InOrder.within_of_or (h : InOrder classes l ∨ InOrder (classes ++ [C]) l) :
    Within (classes.length, some (classes.length + 1)) l := by
  rcases h with h | h
  · have := h.length_eq
    exact ⟨by omega, by simp; omega⟩
  · have := h.length_eq
    rw [List.length_append, List.length_singleton] at this
    exact ⟨by omega, by simp; omega⟩

lemma AtMostOne.within (h : AtMostOne C l) : Within (0, some 1) l := by
  rcases l with - | ⟨n, - | ⟨m, l⟩⟩
  · simp [Within]
  · simp [Within]
  · cases h

lemma Headed.within (h : Headed C D l) : Within (1, none) l := by
  cases l with
  | nil => cases h
  | cons n l => simp [Within]

lemma within_of_each : Within (0, none) l := by simp [Within]

lemma childCount_of_fit {kind : NodeKind} (h : ChildrenFit kind l) : Within kind.childCount l := by
  cases kind with
  | call | new | switchStmt | varDecl | letDecl | constDecl => exact Headed.within h
  | destructuring | ifStmt | tryStmt => exact InOrder.within_of_or h
  | returnStmt | memberField | name | stringKey => exact AtMostOne.within h
  | root | script | block | objectPattern | arrayPattern | paramList | classMembers | arrayLit
  | objectLit => exact within_of_each
  | _ => exact InOrder.within h

end Counts

/-! ### Places of children -/

/-- Stands anywhere: neither a key nor a script, and without an initializer. -/
def IsPlain (n : Node) : Prop :=
  n.kind ≠ .root ∧ n.kind ≠ .script ∧ n.kind ≠ .stringKey ∧ (n.kind = .name → n.children = [])

section Places

variable {n : Node}

lemma IsBareName.isPlain (h : n.IsBareName) : n.IsPlain := by
  obtain ⟨hk, hc⟩ := h
  simp [IsPlain, hk, hc]

lemma isPlain_of_kind {kind : NodeKind} (h : n.kind = kind)
    (hk : kind ≠ .root ∧ kind ≠ .script ∧ kind ≠ .stringKey ∧ kind ≠ .name) : n.IsPlain := by
  subst h
  exact ⟨hk.1, hk.2.1, hk.2.2.1, fun hn => absurd hn hk.2.2.2⟩

lemma IsExpression.isPlain (h : n.IsExpression) : n.IsPlain := by
  obtain ⟨hk, hname⟩ := h
  refine ⟨?_, ?_, ?_, hname⟩ <;> intro h <;> rw [h] at hk <;> cases hk

lemma IsStatement.isPlain (h : n.IsStatement) : n.IsPlain := by
  unfold IsStatement at h
  refine ⟨?_, ?_, ?_, ?_⟩ <;> intro hk <;> rw [hk] at h <;> cases h

lemma IsArgument.isPlain : n.IsArgument → n.IsPlain
  | .inl h => h.isPlain
  | .inr h => isPlain_of_kind h (by decide)

lemma IsPattern.isPlain : n.IsPattern → n.IsPlain
  | .inl h | .inr h => isPlain_of_kind h (by decide)

lemma IsTarget.isPlain : n.IsTarget → n.IsPlain
  | .inl h => h.isPlain
  | .inr h => h.isPlain

lemma IsElement.isPlain : n.IsElement → n.IsPlain
  | .inl h => h.isPlain
  | .inr h => isPlain_of_kind h (by decide)

lemma IsParameter.isPlain : n.IsParameter → n.IsPlain
  | .inl h => h.isPlain
  | .inr h => isPlain_of_kind h (by decide)

lemma IsMember.isPlain : n.IsMember → n.IsPlain
  | .inl h | .inr (.inl h) | .inr (.inr h) => isPlain_of_kind h (by decide)

lemma IsLoopStart.isPlain : n.IsLoopStart → n.IsPlain
  | .inl h => (isStatement_of_declaration h).isPlain
  | .inr (.inl h) => isPlain_of_kind h (by decide)
  | .inr (.inr h) => h.isPlain

lemma IsExpressionOrEmpty.isPlain : n.IsExpressionOrEmpty → n.IsPlain
  | .inl h => h.isPlain
  | .inr h => isPlain_of_kind h (by decide)

/-- A class of plain nodes. -/
def Plain (C : Node → Prop) : Prop := ∀ n, C n → n.IsPlain

lemma plain_kind (kind : NodeKind)
    (hk : kind ≠ .root ∧ kind ≠ .script ∧ kind ≠ .stringKey ∧ kind ≠ .name) :
    Plain (·.kind = kind) :=
  fun _ hn => isPlain_of_kind hn hk

lemma Plain.or {C D : Node → Prop} (hC : Plain C) (hD : Plain D) : Plain fun n => C n ∨ D n :=
  fun n h => h.elim (hC n) (hD n)

/-- Each class of a list is a class of plain nodes. -/
def AllPlain (classes : List (Node → Prop)) : Prop := ∀ C ∈ classes, Plain C

lemma allPlain_nil : AllPlain [] := by simp [AllPlain]

lemma Plain.cons {C : Node → Prop} {classes : List (Node → Prop)} (h : Plain C)
    (hs : AllPlain classes) : AllPlain (C :: classes) := by
  simpa [AllPlain] using ⟨h, hs⟩

lemma InOrder.isPlain {classes : List (Node → Prop)} {l : List Node} (h : InOrder classes l)
    (hP : AllPlain classes) : ∀ n ∈ l, n.IsPlain := by
  induction classes generalizing l with
  | nil => cases l with
    | nil => simp
    | cons n l => cases h
  | cons C classes ih => cases l with
    | nil => cases h
    | cons n l =>
      intro m hm
      rcases List.mem_cons.mp hm with rfl | hm
      · exact hP C List.mem_cons_self m h.1
      · exact ih h.2 (fun D hD => hP D (List.mem_cons_of_mem C hD)) m hm

lemma AtMostOne.isPlain {C : Node → Prop} {l : List Node} (h : AtMostOne C l) (hC : Plain C) :
    ∀ n ∈ l, n.IsPlain := by
  rcases l with - | ⟨n, - | ⟨m, l⟩⟩
  · simp
  · simpa using hC n h
  · cases h

lemma Headed.each {C D P : Node → Prop} {l : List Node} (h : Headed C D l) (hC : ∀ n, C n → P n)
    (hD : ∀ n, D n → P n) : ∀ n ∈ l, P n := by
  cases l with
  | nil => cases h
  | cons n l =>
    intro m hm
    rcases List.mem_cons.mp hm with rfl | hm
    · exact hC m h.1
    · exact hD m (h.2 m hm)

/-- What a child is below a kind of node: plain but for scripts below a root, declared names, and
the entries of object literals and patterns. -/
lemma child_of_fit {kind : NodeKind} {l : List Node} (h : ChildrenFit kind l) {c : Node}
    (hc : c ∈ l) :
    c.IsPlain ∨ (kind = .root ∧ c.kind = .script) ∨ (kind.isDeclaration ∧ c.IsDeclarator) ∨
      (kind = .objectLit ∧ c.IsProperty) ∨ (kind = .objectPattern ∧ c.IsEntry) := by
  have expr : Plain IsExpression := fun n => IsExpression.isPlain
  have stmt : Plain IsStatement := fun n => IsStatement.isPlain
  have target : Plain IsTarget := fun n => IsTarget.isPlain
  have element : Plain IsElement := fun n => IsElement.isPlain
  have start : Plain IsLoopStart := fun n => IsLoopStart.isPlain
  have part : Plain IsExpressionOrEmpty := fun n => IsExpressionOrEmpty.isPlain
  have pattern : Plain IsPattern := fun n => IsPattern.isPlain
  have bare : Plain IsBareName := fun n => IsBareName.isPlain
  have block := plain_kind .block (by decide)
  have empty := plain_kind .empty (by decide)
  have ordered {classes : List (Node → Prop)} (h : InOrder classes l) (hP : AllPlain classes) :
      c.IsPlain := h.isPlain hP c hc
  cases kind with
  | root => exact .inr (.inl ⟨rfl, h c hc⟩)
  | varDecl | letDecl | constDecl =>
    exact .inr (.inr (.inl ⟨rfl, Headed.each h (fun _ => id) (fun _ => id) c hc⟩))
  | objectLit => exact .inr (.inr (.inr (.inl ⟨rfl, h c hc⟩)))
  | objectPattern => exact .inr (.inr (.inr (.inr ⟨rfl, h c hc⟩)))
  | script | block => exact .inl (h c hc).isPlain
  | exprStmt | throwStmt | unary | update | getProp | spread =>
    exact .inl (ordered h (expr.cons allPlain_nil))
  | assign | assignOp | binary | comma | getElem =>
    exact .inl (ordered h (expr.cons (expr.cons allPlain_nil)))
  | conditional => exact .inl (ordered h (expr.cons (expr.cons (expr.cons allPlain_nil))))
  | call | new => exact .inl (Headed.each h expr (fun _ => IsArgument.isPlain) c hc)
  | arrayLit => exact .inl ((h c hc).elim IsArgument.isPlain (empty c))
  | stringKey => exact .inl (AtMostOne.isPlain h (expr.or element) c hc)
  | computedProp =>
    have field := plain_kind .memberField (by decide)
    exact .inl (ordered h (expr.cons ((expr.or (element.or field)).cons allPlain_nil)))
  | name | memberField | returnStmt => exact .inl (AtMostOne.isPlain h expr c hc)
  | destructuring =>
    refine .inl (h.elim (fun h => ?_) fun h => ?_)
    · exact ordered h (pattern.cons allPlain_nil)
    · exact ordered h (pattern.cons (expr.cons allPlain_nil))
  | arrayPattern => exact .inl ((h c hc).elim IsParameter.isPlain (empty c))
  | paramList => exact .inl (h c hc).isPlain
  | defaultValue => exact .inl (ordered h (target.cons (expr.cons allPlain_nil)))
  | rest => exact .inl (ordered h (target.cons allPlain_nil))
  | function =>
    have parameters := plain_kind .paramList (by decide)
    exact .inl (ordered h (bare.cons (parameters.cons ((block.or expr).cons allPlain_nil))))
  | classDef =>
    have members := plain_kind .classMembers (by decide)
    exact .inl (ordered h ((bare.or empty).cons (part.cons (members.cons allPlain_nil))))
  | classMembers => exact .inl (h c hc).isPlain
  | memberFunction => exact .inl (ordered h ((plain_kind .function (by decide)).cons allPlain_nil))
  | label => exact .inl (ordered h (stmt.cons allPlain_nil))
  | ifStmt =>
    refine .inl (h.elim (fun h => ?_) fun h => ?_)
    · exact ordered h (expr.cons (stmt.cons allPlain_nil))
    · exact ordered h (expr.cons (stmt.cons (stmt.cons allPlain_nil)))
  | whileStmt => exact .inl (ordered h (expr.cons (stmt.cons allPlain_nil)))
  | doWhileStmt => exact .inl (ordered h (stmt.cons (expr.cons allPlain_nil)))
  | forStmt => exact .inl (ordered h (start.cons (part.cons (part.cons (stmt.cons allPlain_nil)))))
  | forInStmt | forOfStmt =>
    exact .inl (ordered h (start.cons (expr.cons (stmt.cons allPlain_nil))))
  | switchStmt =>
    have clauses := (plain_kind .caseClause (by decide)).or (plain_kind .defaultClause (by decide))
    exact .inl (Headed.each h expr clauses c hc)
  | caseClause => exact .inl (ordered h (expr.cons (block.cons allPlain_nil)))
  | defaultClause => exact .inl (ordered h (block.cons allPlain_nil))
  | tryStmt =>
    have handler := (plain_kind .catchClause (by decide)).or empty
    refine .inl (h.elim (fun h => ?_) fun h => ?_)
    · exact ordered h (block.cons (handler.cons allPlain_nil))
    · exact ordered h (block.cons (handler.cons (block.cons allPlain_nil)))
  | catchClause => exact .inl (ordered h ((target.or empty).cons (block.cons allPlain_nil)))
  | empty | breakStmt | continueStmt | thisExpr | superExpr | stringLit | numberLit | trueLit
  | falseLit | nullLit | regexLit | templateLit => exact .inl (ordered h allPlain_nil)

lemma IsDeclarator.isNot (h : n.IsDeclarator) :
    n.kind ≠ .root ∧ n.kind ≠ .script ∧ n.kind ≠ .stringKey := by
  rcases h with h | h <;> simp [h]

lemma IsProperty.isNot (h : n.IsProperty) :
    n.kind ≠ .root ∧ n.kind ≠ .script ∧ n.kind ≠ .name := by
  rcases h with h | h | h | h <;> simp [h]

lemma IsEntry.isNot (h : n.IsEntry) :
    n.kind ≠ .root ∧ n.kind ≠ .script ∧ n.kind ≠ .name ∧
      (n.kind = .stringKey → n.children.length = 1) := by
  rcases h with h | ⟨h, value, hv, -⟩ | ⟨h, -⟩
  · simp [h]
  · simp [h, hv]
  · simp [h]

end Places

/-! ### Whole trees -/

section Trees

variable {n c : Node} {parent : Option Node}

lemma InOrder.three {A B C : Node → Prop} {l : List Node} (h : InOrder [A, B, C] l) :
    ∃ a b c, l = [a, b, c] ∧ A a ∧ B b ∧ C c := by
  rcases l with - | ⟨a, - | ⟨b, - | ⟨c, - | ⟨d, l⟩⟩⟩⟩
  case cons.cons.cons.nil => exact ⟨a, b, c, rfl, h.1, h.2.1, h.2.2.1⟩
  all_goals simp [InOrder] at h

/-- A declarator has at most one initializer. -/
lemma WellFormed.declarator (h : n.WellFormed) (hd : n.IsDeclarator) :
    (n.kind = .name ∧ n.children.length ≤ 1) ∨
      (n.kind = .destructuring ∧ ∃ pattern value,
        n.children = pattern :: value ∧ pattern.IsPattern ∧ value.length ≤ 1) := by
  have fit := h.fit
  rcases hd with hk | hk
  · rw [hk] at fit
    exact .inl ⟨hk, (AtMostOne.within fit).2 1 rfl⟩
  · rw [hk] at fit
    have most : n.children.length ≤ 2 := (InOrder.within_of_or fit).2 2 rfl
    refine .inr ⟨hk, ?_⟩
    cases hn : n.children with
    | nil => rw [hn] at fit; rcases fit with fit | fit <;> cases fit
    | cons pattern value =>
      rw [hn, List.length_cons] at most
      rw [hn] at fit
      exact ⟨pattern, value, rfl, fit.elim (·.1) (·.1), by omega⟩

/-- What is arranged about a node alone; the rest depends on its parent. -/
lemma WellFormed.arranged (h : n.WellFormed)
    (name : n.kind = .name → n.children ≠ [] → ∃ p ∈ parent, p.kind.isDeclaration)
    (stringKey : n.kind = .stringKey → ∃ p ∈ parent,
      p.kind = .objectLit ∨ (p.kind = .objectPattern ∧ n.children.length = 1))
    (script : n.kind = .script → parent = none) : n.Arranged parent where
  atLeast := (childCount_of_fit h.fit).1
  atMost := (childCount_of_fit h.fit).2
  function hk := by
    have fit := h.fit
    rw [hk] at fit
    obtain ⟨name, parameters, body, hl, hname, hparameters, hbody⟩ := InOrder.three fit
    exact ⟨name, parameters, body, hl, hname.1, hparameters, hbody⟩
  classDef hk := by
    have fit := h.fit
    rw [hk] at fit
    obtain ⟨name, base, members, hl, hname, hbase, hmembers⟩ := InOrder.three fit
    exact ⟨name, base, members, hl, hname.imp_left (·.1), hbase, hmembers⟩
  declaration hk d hd := by
    refine (h.child hd).declarator ?_
    have fit := h.fit
    cases hn : n.kind <;> rw [hn] at hk fit <;>
      first | exact Headed.each fit (fun _ => id) (fun _ => id) d hd | cases hk
  name := name
  stringKey := stringKey
  script := script

lemma IsPlain.arranged (hp : c.IsPlain) (h : c.WellFormed) : c.Arranged parent :=
  h.arranged (fun hk hc => absurd (hp.2.2.2 hk) hc) (fun hk => absurd hk hp.2.2.1)
    fun hk => absurd hk hp.2.1

/-- Below anything but a root, children are arranged. -/
lemma WellFormed.arranged_child (h : n.WellFormed) (hn : n.kind ≠ .root) (hc : c ∈ n.children) :
    c.Arranged (some n) ∧ c.kind ≠ .root := by
  have wf := h.child hc
  rcases child_of_fit h.fit hc with hp | ⟨hr, -⟩ | ⟨hd, hk⟩ | ⟨hl, hk⟩ | ⟨ho, hk⟩
  · exact ⟨hp.arranged wf, hp.1⟩
  · exact absurd hr hn
  · obtain ⟨noRoot, noScript, noKey⟩ := hk.isNot
    exact ⟨wf.arranged (fun _ _ => ⟨n, rfl, hd⟩) (absurd · noKey) (absurd · noScript), noRoot⟩
  · obtain ⟨noRoot, noScript, noName⟩ := hk.isNot
    exact ⟨wf.arranged (absurd · noName) (fun _ => ⟨n, rfl, .inl hl⟩) (absurd · noScript), noRoot⟩
  · obtain ⟨noRoot, noScript, noName, one⟩ := hk.isNot
    refine ⟨wf.arranged (absurd · noName) (fun h => ?_) (absurd · noScript), noRoot⟩
    exact ⟨n, rfl, .inr ⟨ho, one h⟩⟩

end Trees

end Node

/-! ### Paths -/

namespace Spot

/-- What steps to children keep, holds wherever a path leads. -/
lemma at?_keeps {P : Spot → Prop} (step : ∀ s i t, P s → s.child? i = some t → P t) {s t : Spot}
    {path : List Nat} (h : P s) (ht : s.at? path = some t) : P t := by
  unfold at? at ht
  induction path generalizing s with
  | nil =>
    cases ht
    exact h
  | cons i path ih =>
    rw [List.foldlM_cons] at ht
    cases hu : s.child? i with
    | none =>
      rw [hu] at ht
      cases ht
    | some u =>
      rw [hu] at ht
      exact ih (step s i u h hu) ht

lemma child?_eq_some {s t : Spot} {i : Nat} (h : s.child? i = some t) :
    t.node ∈ s.node.children ∧ t.parent? = some s.node := by
  unfold child? at h
  obtain ⟨c, hc, rfl⟩ := Option.map_eq_some_iff.mp h
  exact ⟨List.mem_of_getElem? hc, rfl⟩

end Spot

/-- In a well-formed script every node is arranged. -/
lemma Node.As.arranged_at {script : Node} (h : script.As (·.kind = .script)) {path : List Nat}
    {spot : Spot} (hs : (Spot.root script).at? path = some spot) :
    spot.node.Arranged spot.parent? := by
  have keeps : ∀ s i t, (s.node.WellFormed ∧ s.node.Arranged s.parent? ∧ s.node.kind ≠ .root) →
      Spot.child? s i = some t →
      t.node.WellFormed ∧ t.node.Arranged t.parent? ∧ t.node.kind ≠ .root := by
    rintro s i t ⟨wf, -, noRoot⟩ ht
    obtain ⟨hc, hp⟩ := Spot.child?_eq_some ht
    rw [hp]
    exact ⟨wf.child hc, wf.arranged_child noRoot hc⟩
  obtain ⟨hk, wf⟩ := h
  have top : script.Arranged none := wf.arranged (by simp [hk]) (by simp [hk]) (by simp)
  exact (Spot.at?_keeps keeps ⟨wf, top, by simp [Spot.root, hk]⟩ hs).2.1

end ModuleLint
