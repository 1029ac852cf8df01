import ModuleLint.Proofs.Grammar.GroupReads
import ModuleLint.Proofs.Grammar.OperatorTree
import ModuleLint.Proofs.Grammar.ScriptRespan

/-!
Operators group as their precedences say.

The loop over operators reads a grouped tree from left to right: the left operand is what it has
grown so far, and the right one is read with a floor under which the next operator falls. So each
tree is read for every way in which the loop may go on behind it.
-/

namespace ModuleLint

namespace Grammar

open Reader Token OperatorTree

variable {readers : Readers} {depth floor : Nat} {l m r : List Token} {t : Token}

/-- The floor for the right operand of an operator. -/
def rightFloor (k : TokenKind) : Nat := if k = .starStar then precedence k - 1 else precedence k

lemma rightFloor_lt {a b : TokenKind} : rightFloor a < precedence b ↔ FitsRight a b := by
  simp only [rightFloor, FitsRight, eq_starStar_iff]
  split <;> omega

/-- What may stand behind an operand. -/
structure Follows (k : TokenKind) : Prop where
  ends : EndsOperand k
  noFunction : k ≠ .kwFunction

lemma follows_operator {k : TokenKind} (h : IsOperator k) : Follows k ∧ k ≠ .eof ∧ k ≠ .arrow := by
  have all : ∀ level ∈ operatorLevels, ∀ k ∈ level,
      (EndsOperand k ∧ k ≠ .kwFunction) ∧ k ≠ .eof ∧ k ≠ .arrow := by decide +kernel
  obtain ⟨level, hl, hk⟩ := h
  obtain ⟨⟨ends, noFunction⟩, known, noArrow⟩ := all level hl k hk
  exact ⟨⟨ends, noFunction⟩, known, noArrow⟩

namespace OperatorTree

/-- Names joined by binary operators. -/
def IsSpelled : OperatorTree → Prop
  | operand x => x.kind = .identifier
  | join l o r => l.IsSpelled ∧ IsOperator o.kind ∧ r.IsSpelled

/-- The tokens without their spans. -/
def bareTokens (t : OperatorTree) : List Token := t.tokens.map (·.respan .forget)

lemma bareTokens_join (l r : OperatorTree) (o : Token) (m : List Token) :
    (join l o r).bareTokens ++ m = l.bareTokens ++ o.respan .forget :: (r.bareTokens ++ m) := by
  simp [bareTokens, tokens]

/-- A spelled tree has names and operators where it has operands and operators. -/
lemma isSpelled_iff (t : OperatorTree) : t.IsSpelled ↔ t.first.kind = .identifier ∧
    ∀ p ∈ t.rest, IsOperator p.1.kind ∧ p.2.kind = .identifier := by
  induction t with
  | operand x => simp [IsSpelled, first, rest]
  | join l o r left right =>
    simp only [IsSpelled, first, rest, left, right, List.mem_append, List.mem_cons]
    constructor
    · rintro ⟨⟨name, before⟩, operator, next, behind⟩
      refine ⟨name, ?_⟩
      rintro p (hp | rfl | hp)
      · exact before p hp
      · exact ⟨operator, next⟩
      · exact behind p hp
    · rintro ⟨name, all⟩
      obtain ⟨operator, next⟩ := all (o, r.first) (.inr (.inl rfl))
      exact ⟨⟨name, fun p hp => all p (.inl hp)⟩, operator, next,
        fun p hp => all p (.inr (.inr hp))⟩

lemma IsSpelled.operator {t : OperatorTree} (h : t.IsSpelled) :
    ∀ o ∈ t.operator?, IsOperator o.kind := by
  cases t with
  | operand x => simp [operator?]
  | join l o r =>
    rintro p ⟨⟩
    exact h.2.1

lemma IsSpelled.noArrow {t : OperatorTree} (h : t.IsSpelled) :
    ∀ u ∈ t.tokens, u.kind ≠ .arrow := by
  induction t with
  | operand x =>
    rintro u (⟨⟩ | ⟨-, ⟨⟩⟩)
    exact fun arrow => nomatch h.symm.trans arrow
  | join l o r left right =>
    obtain ⟨spelledL, operator, spelledR⟩ := h
    intro u hu
    rw [tokens, List.mem_append, List.mem_cons] at hu
    rcases hu with hu | rfl | hu
    · exact left spelledL u hu
    · exact (follows_operator operator).2.2
    · exact right spelledR u hu

end OperatorTree

/-! ### Reading a tree -/

lemma unary_of_name {x : Token} (name : x.kind = .identifier) (follows : Follows t.kind) :
    Reads (unary readers) (x.respan .forget :: t :: m) (.leaf .name x.value .none) (t :: m) := by
  have literal : literalKind? (x.respan .forget).kind = some (.name, true) := by
    rw [show (x.respan .forget).kind = .identifier from name]
    rfl
  have first : StartsPrimary (x.respan .forget).kind := .inl (by rw [literal]; rfl)
  exact unary_of_primary (primary_of_literal rfl literal follows.noFunction) first follows.ends

/-- The loop takes an operator and what its right operand is. -/
lemma binaryTurn_reads {left right : Node} {o : Token} (known : o.kind ≠ .eof)
    (tight : floor < precedence o.kind) (hl : l ≠ [])
    (h : Reads (readers (.binary (rightFloor o.kind))) l right m) :
    Reads (binaryTurn readers .none floor left) (o :: l)
      (some ⟨.binary, o.lexeme, .none, {}, [left, right]⟩) m := by
  unfold binaryTurn
  refine (tightness_reads o l).bind ?_
  rw [level_eq, if_neg (Nat.not_le.mpr tight)]
  refine (advance_reads known hl).bind ?_
  exact h.bind (extended_reads .binary o.lexeme {} [left, right] m).map

/-- A grouped tree is read, and the loop goes on behind it. -/
lemma binary_of_tree {tree : OperatorTree} {n : Node} (grouped : tree.IsGrouped)
    (spelled : tree.IsSpelled) (tight : ∀ o ∈ tree.operator?, floor < precedence o.kind)
    (stop : ∀ o ∈ tree.operator?, ¬ FitsRight o.kind t.kind) (follows : Follows t.kind)
    (deep : (tree.bareTokens ++ t :: m).length ≤ depth + 1)
    (behind : ReadsGrowth (binaryTurn (read depth) .none floor) tree.node (t :: m) n r) :
    Reads (binary (read depth) floor) (tree.bareTokens ++ t :: m) n r := by
  induction tree generalizing depth floor t m n r with
  | operand x =>
    unfold binary
    exact (here_reads _).bind ((unary_of_name spelled follows).bind behind.growing)
  | join left o right ihLeft ihRight =>
    obtain ⟨groupedL, groupedR, fitsL, fitsR⟩ := grouped
    obtain ⟨spelledL, operator, spelledR⟩ := spelled
    obtain ⟨followsO, known, -⟩ := follows_operator operator
    have tightO : floor < precedence o.kind := tight o rfl
    have stopO : ¬ FitsRight o.kind t.kind := stop o rfl
    rw [bareTokens_join] at deep ⊢
    have shorter : (right.bareTokens ++ t :: m).length < (left.bareTokens ++ o.respan .forget ::
        (right.bareTokens ++ t :: m)).length := by
      simp only [List.length_append, List.length_cons]
      omega
    -- the right operand stops where the whole tree does
    have readRight : Reads (read depth (.binary (rightFloor o.kind))) (right.bareTokens ++ t :: m)
        right.node (t :: m) := by
      refine reads_of_production (fun depth deep => ?_) (by omega)
      have stopR : ∀ p ∈ right.operator?, ¬ FitsRight p.kind t.kind := fun p hp fits =>
        stopO (fits.looser (fitsR p hp).precedence_le)
      refine ihRight groupedR spelledR (fun p hp => rightFloor_lt.mpr (fitsR p hp)) stopR follows
        deep (.none (binaryTurn_end ?_))
      rw [level_eq]
      exact Nat.not_lt.mp fun lt => stopO (rightFloor_lt.mp lt)
    have turn : Reads (binaryTurn (read depth) .none floor left.node) (o.respan .forget ::
        (right.bareTokens ++ t :: m)) (some (join left o right).node) (t :: m) :=
      binaryTurn_reads (o := o.respan .forget) known tightO (by simp) readRight
    have taken : (t :: m).length <
        (o.respan .forget :: (right.bareTokens ++ t :: m)).length := by
      simp only [List.length_append, List.length_cons]
      omega
    refine ihLeft groupedL spelledL (fun p hp => ?_) (fun p hp => ?_) followsO deep
      (.some turn taken behind)
    · exact Nat.lt_of_lt_of_le tightO (fitsL p hp).precedence_le
    · exact (fitsLeft_iff _ _).mp (fitsL p hp)

/-! ### Reading with spans -/

/-- What is read without spans is read with them. -/
lemma ok_of_reads {p : Reader Node} {s : ReaderState} {n : Node} (carries : Carries .forget p p)
    (allows : s.allowsIn = true) (noArrow : ∀ t ∈ s.tokens, t.kind ≠ .arrow)
    (h : Reads p (s.tokens.map (·.respan .forget)) n m) :
    ∃ a u, p s = .ok a u ∧ a.respan .forget = n ∧ u.tokens.map (·.respan .forget) = m ∧
      u.faults.map (·.respan .forget) = s.faults.map (·.respan .forget) := by
  have calm : (s.respan .forget).Calm := by
    refine ⟨allows, rfl, fun t ht => ?_⟩
    obtain ⟨u, hu, rfl⟩ := List.mem_map.mp (show t ∈ s.tokens.map (·.respan .forget) from ht)
    exact ⟨rfl, noArrow u hu⟩
  obtain ⟨u, reads, -, tokens, faults⟩ := h (s.respan .forget) calm rfl
  obtain ⟨a, v, run, value, rfl⟩ := carries.ok reads
  exact ⟨a, v, run, value, tokens, faults⟩

/-- A grouped tree is read as an expression up to the end of the text. -/
lemma expression_of_tree {tree : OperatorTree} (grouped : tree.IsGrouped)
    (spelled : tree.IsSpelled) (last : t.kind = .eof)
    (deep : (tree.bareTokens ++ [t]).length ≤ depth) :
    Reads (read depth .expression) (tree.bareTokens ++ [t]) tree.node [t] := by
  refine reads_of_production (fun depth deep => ?_) deep
  have ends : EndsAssignment t.kind := by
    rw [last]
    decide
  obtain ⟨endsOperand, loose, -, -, noFunction⟩ := ends.stops
  have none : precedence t.kind = 0 := (level_eq t.kind).symm.trans loose
  have whole : Reads (binary (read depth) 0) (tree.bareTokens ++ [t]) tree.node [t] := by
    refine binary_of_tree grouped spelled (fun o ho => ?_) (fun o ho fits => ?_)
      ⟨endsOperand, noFunction⟩ deep (.none (binaryTurn_end (Nat.le_of_eq loose)))
    · exact (spelled.operator o ho).precedence_pos
    · have tight := (spelled.operator o ho).precedence_pos
      have tighter := fits.precedence_le
      omega
  exact expression_of_assignment (assignment_of_binary whole ends) (by rw [last]; decide)

/-- **Operators group as their precedences say.** Of names with operators between them there is
exactly one grouped tree, and it is what is read, to the end of the text and without an error. -/
theorem readFrom_operators {first eof : Token} {rest : List (Token × Token)}
    (name : first.kind = .identifier)
    (others : ∀ p ∈ rest, IsOperator p.1.kind ∧ p.2.kind = .identifier) (last : eof.kind = .eof) :
    ∃ tree : OperatorTree, tree.tokens = first :: flat rest ∧ tree.IsGrouped ∧
      (∀ u : OperatorTree, u.tokens = first :: flat rest → u.IsGrouped → u = tree) ∧
      ∃ n s, readFrom .expression first (flat rest ++ [eof]) = .ok n s ∧
        n.respan .forget = tree.node ∧ s.current.kind = .eof ∧ s.ahead = [] ∧ s.faults = [] := by
  let tree := (OperatorTree.operand first).extend rest
  have tokens : tree.tokens = first :: flat rest := tokens_extend _ _
  have single : (OperatorTree.operand first).IsGrouped := trivial
  have grouped : tree.IsGrouped := single.extend rest
  have spelled : tree.IsSpelled := by
    obtain ⟨same, behind⟩ := List.cons.inj (tree.tokens_eq.symm.trans tokens)
    rw [isSpelled_iff, same, flat_inj behind]
    exact ⟨name, others⟩
  have all : (start first (flat rest ++ [eof])).tokens = tree.tokens ++ [eof] := by
    rw [tokens]
    rfl
  have noArrow : ∀ t ∈ tree.tokens ++ [eof], t.kind ≠ .arrow := by
    rw [List.forall_mem_append]
    refine ⟨spelled.noArrow, ?_⟩
    simp [last]
  have bare : (tree.tokens ++ [eof]).map (·.respan .forget) =
      tree.bareTokens ++ [eof.respan .forget] := List.map_append
  have reads : Reads (Grammar.read ((flat rest ++ [eof]).length + 2) .expression)
      (tree.bareTokens ++ [eof.respan .forget]) tree.node [eof.respan .forget] :=
    expression_of_tree grouped spelled last (by simp [bareTokens, tokens])
  rw [← bare, ← all] at reads
  obtain ⟨n, s, read, shape, left, faults⟩ :=
    ok_of_reads (read_carries .forget _ _) rfl (by rwa [all]) reads
  obtain ⟨current, ahead⟩ := List.cons.inj left
  have unique (u : OperatorTree) (hu : u.tokens = first :: flat rest) (groupedU : u.IsGrouped) :
      u = tree := groupedU.unique grouped (hu.trans tokens.symm)
  exact ⟨tree, tokens, grouped, unique, n, s, read, shape, (congrArg Token.kind current).trans last,
    List.map_eq_nil_iff.mp ahead, List.map_eq_nil_iff.mp faults⟩

/-- `a - b ** c ** d - e`, where `**` groups to the right and binds tighter. -/
theorem readFrom_operators_mixed :
    let x (name : String) : Token := word .identifier (ascii name)
    let powers : OperatorTree :=
      .join (.operand (x "b")) (sign .starStar)
        (.join (.operand (x "c")) (sign .starStar) (.operand (x "d")))
    let tree : OperatorTree :=
      .join (.join (.operand (x "a")) (sign .minus) powers) (sign .minus) (.operand (x "e"))
    ∃ n s, readFrom .expression (x "a") [sign .minus, x "b", sign .starStar, x "c", sign .starStar,
        x "d", sign .minus, x "e", word .eof []] = .ok n s ∧
      n.respan .forget = tree.node ∧ s.current.kind = .eof ∧ s.ahead = [] ∧ s.faults = [] := by
  intro x powers tree
  have operators : IsOperator .minus ∧ IsOperator .starStar := by
    unfold IsOperator
    decide
  have others : ∀ p ∈ [(sign .minus, x "b"), (sign .starStar, x "c"), (sign .starStar, x "d"),
      (sign .minus, x "e")], IsOperator p.1.kind ∧ p.2.kind = .identifier := by
    simp [x, operators]
  obtain ⟨read, -, -, unique, result⟩ :=
    @readFrom_operators (x "a") (word .eof []) _ rfl others rfl
  have grouped : tree.IsGrouped := by
    simp [tree, powers, IsGrouped, operator?]
    decide +kernel
  rw [← unique tree rfl grouped] at result
  exact result

end Grammar

end ModuleLint
