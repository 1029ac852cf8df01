import ModuleLint.Grammar.Script
import ModuleLint.Proofs.Grammar.ExpressionReads
import ModuleLint.Proofs.Grammar.Respan

/-!
Expressions in parentheses, and lists of them.

An expression that can be read from its own tokens can be read as an operand once it stands in
parentheses, whatever follows. So each level of the grammar reads it up to a token that ends the
level.
-/

namespace ModuleLint

namespace Node

/-- A tree from no file. -/
def bare (n : Node) : Node := n.respan .forget

@[simp] lemma bare_mk (kind : NodeKind) (value : Bytes) (span : Span) (flags : NodeFlags)
    (l : List Node) :
    (Node.mk kind value span flags l).bare = ⟨kind, value, .none, flags, l.map bare⟩ :=
  respan_mk .forget kind value span flags l

@[simp] lemma span_bare (n : Node) : n.bare.span = .none := span_respan .forget n

@[simp] lemma kind_bare (n : Node) : n.bare.kind = n.kind := kind_respan .forget n

end Node

namespace Grammar

open Reader Token Node

variable {quote : TokenKind → Bytes → Bytes} {depth : Nat} {l m : List Token} {t : Token}
  {n : Node}

/-- Enough depth for some tokens is more than none. -/
lemma reads_of_production {nonterminal : Nonterminal} {tokens : List Token}
    (h : ∀ depth, (tokens ++ t :: m).length ≤ depth + 1 →
      Reads (production (read depth) nonterminal) (tokens ++ t :: m) n l)
    (deep : (tokens ++ t :: m).length ≤ depth) :
    Reads (read depth nonterminal) (tokens ++ t :: m) n l := by
  cases depth with
  | zero => simp at deep
  | succ depth => exact h depth deep

/-! ### Groups -/

/-- An expression that is read from its tokens, and is put into parentheses inside another one. -/
structure ReadBack (quote : TokenKind → Bytes → Bytes) (n : Node) : Prop where
  kind : n.kind ∉ partKinds
  reads {depth : Nat} {t : Token} {m : List Token} (stop : t.kind = .rparen ∨ t.kind = .eof)
    (deep : (n.print quote ++ t :: m).length ≤ depth) :
    Reads (read depth .expression) (n.print quote ++ t :: m) n.bare (t :: m)

namespace ReadBack

lemma part_eq (h : ReadBack quote n) : n.part quote = grouped (n.print quote) := if_neg h.kind

lemma opens (h : ReadBack quote n) (l : List Token) :
    n.part quote ++ l = sign .lparen :: (n.print quote ++ sign .rparen :: l) := by
  simp [h.part_eq, grouped]

lemma primary (h : ReadBack quote n) (hl : l ≠ []) (deep : (n.part quote ++ l).length ≤ depth + 1) :
    Reads (primary (read depth)) (n.part quote ++ l) n.bare l := by
  rw [h.opens, List.length_cons] at deep
  have inside := (h.reads (.inl rfl) (Nat.le_of_succ_le_succ deep)).withIn
  rw [h.opens]
  unfold Grammar.primary
  refine (isAsyncFunction_reads (.inl (by simp))).bind ((current_reads _ _).bind ?_)
  change Reads (parenthesized (read depth)) _ _ _
  unfold parenthesized
  refine (advance_reads (by simp) (by simp)).bind (inside.bind ?_)
  exact (expect_reads rfl (by decide) hl).map

lemma operandBase (h : ReadBack quote n) (hl : l ≠ [])
    (deep : (n.part quote ++ l).length ≤ depth + 1) :
    Reads (operandBase (read depth)) (n.part quote ++ l) n.bare l := by
  have group := h.primary hl deep
  rw [h.opens] at group ⊢
  exact operandBase_of_primary group (.inr (.inl rfl))

lemma unary (h : ReadBack quote n) (stop : EndsOperand t.kind)
    (deep : (n.part quote ++ t :: m).length ≤ depth + 1) :
    Reads (unary (read depth)) (n.part quote ++ t :: m) n.bare (t :: m) := by
  have group := h.primary (List.cons_ne_nil t m) deep
  rw [h.opens] at group ⊢
  exact unary_of_primary group (.inr (.inl rfl)) stop

lemma binary {floor : Nat} (h : ReadBack quote n) (stop : EndsOperand t.kind)
    (loose : level true t.kind ≤ floor) (deep : (n.part quote ++ t :: m).length ≤ depth + 1) :
    Reads (binary (read depth) floor) (n.part quote ++ t :: m) n.bare (t :: m) :=
  binary_of_unary (h.unary stop deep) loose

lemma assignment (h : ReadBack quote n) (stop : EndsAssignment t.kind)
    (deep : (n.part quote ++ t :: m).length ≤ depth + 1) :
    Reads (assignment (read depth)) (n.part quote ++ t :: m) n.bare (t :: m) :=
  assignment_of_unary (h.unary stop.stops.1 deep) stop

lemma reads_unary (h : ReadBack quote n) (stop : EndsOperand t.kind)
    (deep : (n.part quote ++ t :: m).length ≤ depth) :
    Reads (read depth .unary) (n.part quote ++ t :: m) n.bare (t :: m) :=
  reads_of_production (fun _ => h.unary stop) deep

lemma reads_binary {floor : Nat} (h : ReadBack quote n) (stop : EndsOperand t.kind)
    (loose : level true t.kind ≤ floor) (deep : (n.part quote ++ t :: m).length ≤ depth) :
    Reads (read depth (.binary floor)) (n.part quote ++ t :: m) n.bare (t :: m) :=
  reads_of_production (fun _ => h.binary stop loose) deep

lemma reads_assignment (h : ReadBack quote n) (stop : EndsAssignment t.kind)
    (deep : (n.part quote ++ t :: m).length ≤ depth) :
    Reads (read depth .assignment) (n.part quote ++ t :: m) n.bare (t :: m) :=
  reads_of_production (fun _ => h.assignment stop) deep

lemma reads_expression (h : ReadBack quote n) (stop : EndsAssignment t.kind)
    (last : t.kind ≠ .comma) (deep : (n.part quote ++ t :: m).length ≤ depth) :
    Reads (read depth .expression) (n.part quote ++ t :: m) n.bare (t :: m) :=
  reads_of_production (fun _ deep => expression_of_assignment (h.assignment stop deep) last) deep

end ReadBack

/-! ### Lists -/

/-- An item that `item` reads from its tokens before a comma or the token that closes the list. -/
structure ReadsItem (quote : TokenKind → Bytes → Bytes) (item : Readers → Reader Node)
    (close : TokenKind) (n : Node) : Prop where
  starts : ∃ t l, n.part quote = t :: l ∧ ¬ EndsAssignment t.kind
  reads {depth : Nat} {t : Token} {m : List Token} (stop : t.kind = .comma ∨ t.kind = close)
    (deep : (n.part quote ++ t :: m).length ≤ depth) :
    Reads (item (read depth)) (n.part quote ++ t :: m) n.bare (t :: m)

namespace ReadsItem

variable {item : Readers → Reader Node} {close : TokenKind} {holes : Bool}

lemma first (h : ReadsItem quote item close n) (hc : EndsAssignment close) :
    ∃ t l, n.part quote = t :: l ∧ t.kind ∉ [.comma, close, .eof] := by
  obtain ⟨t, l, starts, noEnd⟩ := h.starts
  refine ⟨t, l, starts, fun mem => noEnd ?_⟩
  simp only [List.mem_cons, List.not_mem_nil, or_false] at mem
  rcases mem with mem | mem | mem <;> rw [mem]
  · decide
  · exact hc
  · decide

lemma last (h : ReadsItem quote item close n) (hc : EndsAssignment close) (sep : close ≠ .comma)
    (ht : t.kind = close) (deep : (n.part quote ++ t :: m).length ≤ depth) :
    Reads (listTurn close holes (item (read depth))) (n.part quote ++ t :: m) (.last [n.bare])
      (t :: m) := by
  obtain ⟨u, l, starts, first⟩ := h.first hc
  have reads := h.reads (.inr ht) deep
  rw [starts] at reads ⊢
  exact listTurn_last first reads (ht ▸ sep)

lemma more (h : ReadsItem quote item close n) (hc : EndsAssignment close) (hm : m ≠ [])
    (deep : (n.part quote ++ sign .comma :: m).length ≤ depth) :
    Reads (listTurn close holes (item (read depth))) (n.part quote ++ sign .comma :: m)
      (.more [n.bare]) m := by
  obtain ⟨u, l, starts, first⟩ := h.first hc
  have reads := h.reads (.inl rfl) deep
  rw [starts] at reads ⊢
  exact listTurn_more first reads rfl hm

end ReadsItem

lemma list_separated {item : Readers → Reader Node} {close : TokenKind} {items : List Node}
    (h : ∀ n ∈ items, ReadsItem quote item close n) (hc : EndsAssignment close)
    (sep : close ≠ .comma) (ht : t.kind = close)
    (deep : (separated (items.map (part quote)) ++ t :: m).length ≤ depth) :
    Reads (list close false (item (read depth))) (separated (items.map (part quote)) ++ t :: m)
      (items.map bare) (t :: m) := by
  refine ReadsTurns.repeatedly ?_
  induction items with
  | nil => exact .last (listTurn_end ht m)
  | cons n items ih =>
    obtain ⟨first, others⟩ := List.forall_mem_cons.mp h
    -- only the last item has no comma behind it
    by_cases single : items = []
    · subst single
      rw [List.map_cons, List.map_nil, separated_singleton] at deep ⊢
      exact .last (first.last hc sep ht deep)
    · rw [List.map_cons, separated_cons _ (by simpa using single), List.append_assoc,
        List.cons_append] at deep ⊢
      refine .more (first.more hc (by simp) deep) ?_ (ih others ?_)
      · simp only [List.length_append, List.length_cons]
        omega
      · simp only [List.length_append, List.length_cons] at deep ⊢
        omega

/-- A missing element. -/
def IsHole (quote : TokenKind → Bytes → Bytes) (n : Node) : Prop :=
  n.part quote = [] ∧ n.bare = Node.of .empty .none []

lemma list_terminated {item : Readers → Reader Node} {close : TokenKind} {items : List Node}
    (h : ∀ n ∈ items, IsHole quote n ∨ ReadsItem quote item close n) (hc : EndsAssignment close)
    (sep : close ≠ .comma) (ht : t.kind = close)
    (deep : (terminated (items.map (part quote)) ++ t :: m).length ≤ depth) :
    Reads (list close true (item (read depth))) (terminated (items.map (part quote)) ++ t :: m)
      (items.map bare) (t :: m) := by
  refine ReadsTurns.repeatedly ?_
  induction items with
  | nil => exact .last (listTurn_end ht m)
  | cons n items ih =>
    obtain ⟨first, others⟩ := List.forall_mem_cons.mp h
    have behind : terminated ((n :: items).map (part quote)) ++ t :: m =
        n.part quote ++ sign .comma :: (terminated (items.map (part quote)) ++ t :: m) := by
      simp [terminated]
    rw [behind] at deep ⊢
    have turn : Reads (listTurn close true (item (read depth)))
        (n.part quote ++ sign .comma :: (terminated (items.map (part quote)) ++ t :: m))
        (.more [n.bare]) (terminated (items.map (part quote)) ++ t :: m) := by
      rcases first with ⟨nothing, bare⟩ | first
      · rw [nothing, bare]
        exact listTurn_hole sep (by simp)
      · exact first.more hc (by simp) deep
    refine .more turn ?_ (ih others ?_)
    · simp only [List.length_append, List.length_cons]
      omega
    · simp only [List.length_append, List.length_cons] at deep ⊢
      omega

end Grammar

end ModuleLint
