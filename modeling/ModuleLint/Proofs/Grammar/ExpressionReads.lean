import ModuleLint.Proofs.Grammar.Reads

/-!
Expressions that end where they should.

A reader of operands and operators stops before a token that its expression cannot go on with. So
what one level of the grammar reads, the levels above read as well, up to a token that ends them.
-/

namespace ModuleLint

namespace Grammar

open Reader Token

variable {readers : Readers} {l m : List Token} {t u : Token} {n : Node}

/-! ### No functions -/

lemma head_ne_arrow (h : AllQuiet l) : l.head?.any (·.kind == .arrow) = false := by
  cases l with
  | nil => rfl
  | cons t l => exact beq_eq_false_iff_ne.mpr (allQuiet_cons.mp h).1.2

lemma closesBeforeArrow_quiet (h : AllQuiet l) (depth : Nat) :
    closesBeforeArrow depth l = false := by
  induction l generalizing depth with
  | nil => rfl
  | cons t l ih =>
    have rest := (allQuiet_cons.mp h).2
    unfold closesBeforeArrow
    split
    -- an opening bracket, a closing one, the end, and any other token
    case h_1 | h_2 | h_3 => exact ih rest _
    case h_4 | h_5 | h_6 =>
      split
      · rw [head_ne_arrow rest, Bool.and_false]
      · exact ih rest _
    case h_7 => rfl
    case h_8 => exact ih rest _

lemma startsArrow_quiet (h : AllQuiet l) : startsArrow l = false := by
  cases l with
  | nil => rfl
  | cons t l =>
    rw [startsArrow]
    split
    · exact head_ne_arrow (allQuiet_cons.mp h).2
    · rw [closesBeforeArrow_quiet h, Bool.and_false]

lemma isArrow_reads (l : List Token) : Reads (look isArrow) l false l :=
  reads_look fun _ calm _ => startsArrow_quiet calm.tokens

lemma isAsyncArrow_reads (l : List Token) : Reads (look isAsyncArrow) l false l := by
  refine reads_look fun s calm _ => ?_
  rw [isAsyncArrow, startsArrow_quiet (allQuiet_cons.mp calm.tokens).2, Bool.and_false]

lemma isAsyncFunction_reads (h : t.kind ≠ .identifier ∨ ∃ u m, l = u :: m ∧ u.kind ≠ .kwFunction) :
    Reads (look isAsyncFunction) (t :: l) false (t :: l) := by
  refine reads_look fun s _ hs => ?_
  obtain ⟨current, ahead⟩ := List.cons.inj hs
  unfold isAsyncFunction
  rcases h with h | ⟨u, m, rfl, h⟩
  · rw [isWord, current, beq_eq_false_iff_ne.mpr h]
    rfl
  · have next : nextToken s = u := by
      rw [nextToken, ahead]
      rfl
    rw [next, beq_eq_false_iff_ne.mpr h, Bool.and_false]
    rfl

/-! ### From level to level -/

lemma access_end {allowCall : Bool} (h : t.kind ≠ .dot ∧ t.kind ≠ .lbracket)
    (call : allowCall = false ∨ t.kind ≠ .lparen) :
    Reads (access readers allowCall n) (t :: l) none (t :: l) := by
  unfold access
  refine (accept_passes h.1).bind ((accept_passes h.2).bind ((isAt_reads _ _ _).bind ?_))
  have noCall : ¬ (allowCall = true ∧ (t.kind == .lparen) = true) := by
    rcases call with call | call
    · simp [call]
    · simp [call]
  rw [if_neg noCall]
  exact reads_pure _ _

lemma accesses_end {allowCall : Bool} (h : t.kind ≠ .dot ∧ t.kind ≠ .lbracket)
    (call : allowCall = false ∨ t.kind ≠ .lparen) :
    Reads (accesses readers allowCall n) (t :: l) n (t :: l) :=
  growing_none (access_end h call)

lemma afterOperand_end (h : t.kind ≠ .plusPlus ∧ t.kind ≠ .minusMinus) :
    Reads (afterOperand .none n) (t :: l) n (t :: l) := by
  unfold afterOperand
  refine (current_reads t l).bind ?_
  rw [if_neg (by simp [h.1, h.2])]
  exact reads_pure _ _

/-- The kinds of tokens that end an operand with its accesses. -/
def EndsOperand (k : TokenKind) : Prop := k ∉ [.dot, .lbracket, .lparen, .plusPlus, .minusMinus]

instance (k : TokenKind) : Decidable (EndsOperand k) := inferInstanceAs (Decidable (k ∉ _))

lemma operand_of_base (h : Reads (operandBase readers) l n (t :: m)) (stop : EndsOperand t.kind) :
    Reads (operand readers) l n (t :: m) := by
  simp only [EndsOperand, List.mem_cons, List.not_mem_nil, or_false, not_or] at stop
  obtain ⟨dot, bracket, paren, plus, minus⟩ := stop
  unfold operand
  exact (here_reads l).bind (h.bind ((accesses_end ⟨dot, bracket⟩ (.inr paren)).bind
    (afterOperand_end ⟨plus, minus⟩)))

/-- The kinds of tokens that operands start with, but for `new`. -/
def StartsPrimary (k : TokenKind) : Prop :=
  (literalKind? k).isSome ∨ k = .lparen ∨ k = .lbracket ∨ k = .lbrace

lemma StartsPrimary.noOperator {k : TokenKind} (h : StartsPrimary k) :
    ¬ isUnaryOperator k ∧ ¬ (k = .plusPlus ∨ k = .minusMinus) ∧ k ≠ .kwNew := by
  unfold StartsPrimary at h
  cases k <;> simp_all [literalKind?, isUnaryOperator]

lemma operandBase_of_primary (h : Reads (primary readers) (u :: l) n m)
    (first : StartsPrimary u.kind) : Reads (operandBase readers) (u :: l) n m := by
  unfold operandBase
  exact (isAt_false first.noOperator.2.2).bind h

/-- The text of a literal may be `async`, but then no function may follow. -/
lemma primary_of_literal {kind : NodeKind} {keepsValue : Bool} (noFile : u.span = .none)
    (literal : literalKind? u.kind = some (kind, keepsValue)) (stop : t.kind ≠ .kwFunction) :
    Reads (primary readers) (u :: t :: m)
      (Node.leaf kind (if keepsValue then u.value else []) .none) (t :: m) := by
  have known : u.kind ≠ .eof := by
    intro h
    rw [h] at literal
    cases literal
  unfold primary
  refine (isAsyncFunction_reads (.inr ⟨t, m, rfl, stop⟩)).bind ?_
  refine (current_reads _ _).bind ?_
  simp only [literal]
  unfold Grammar.literal
  refine (advance_reads known (by simp)).bind ?_
  rw [noFile]
  exact reads_pure _ _

lemma unary_of_operand (h : Reads (operand readers) (u :: l) n m)
    (first : ¬ isUnaryOperator u.kind ∧ ¬ (u.kind = .plusPlus ∨ u.kind = .minusMinus)) :
    Reads (unary readers) (u :: l) n m := by
  unfold unary
  refine (current_reads u l).bind ?_
  rw [if_neg first.1, if_neg first.2]
  exact h

lemma unary_of_primary (h : Reads (primary readers) (u :: l) n (t :: m))
    (first : StartsPrimary u.kind) (stop : EndsOperand t.kind) :
    Reads (unary readers) (u :: l) n (t :: m) :=
  unary_of_operand (operand_of_base (operandBase_of_primary h first) stop)
    ⟨first.noOperator.1, first.noOperator.2.1⟩

lemma tightness_reads (t : Token) (l : List Token) :
    Reads (look fun s => level s.allowsIn s.current.kind) (t :: l) (level true t.kind)
      (t :: l) := by
  refine reads_look fun s calm hs => ?_
  rw [calm.allowsIn, (List.cons.inj hs).1]

lemma binaryTurn_end {floor : Nat} (stop : level true t.kind ≤ floor) :
    Reads (binaryTurn readers .none floor n) (t :: l) none (t :: l) := by
  unfold binaryTurn
  refine (tightness_reads t l).bind ?_
  rw [if_pos stop]
  exact reads_pure _ _

lemma binary_of_unary {floor : Nat} (h : Reads (unary readers) l n (t :: m))
    (stop : level true t.kind ≤ floor) : Reads (binary readers floor) l n (t :: m) := by
  unfold binary
  exact (here_reads l).bind (h.bind (growing_none (binaryTurn_end stop)))

lemma conditional_of_binary (h : Reads (binary readers 0) l n (t :: m))
    (stop : t.kind ≠ .question) : Reads (conditional readers) l n (t :: m) := by
  unfold conditional
  exact (here_reads l).bind (h.bind ((accept_passes stop).bind (reads_pure _ _)))

lemma isAssignmentOperator_reads (t : Token) (l : List Token) :
    Reads (look (·.current.kind.isAssignmentOperator)) (t :: l) t.kind.isAssignmentOperator
      (t :: l) := by
  refine reads_look fun s _ hs => ?_
  rw [(List.cons.inj hs).1]

lemma assignment_of_conditional (h : Reads (conditional readers) l n (t :: m))
    (stop : ¬ t.kind.isAssignmentOperator) : Reads (assignment readers) l n (t :: m) := by
  unfold assignment
  refine (isArrow_reads l).bind ((isAsyncArrow_reads l).bind ((here_reads l).bind (h.bind ?_)))
  refine (isAssignmentOperator_reads t m).bind ?_
  rw [if_neg stop]
  exact reads_pure _ _

lemma commaTurn_end (stop : t.kind ≠ .comma) :
    Reads (commaTurn readers .none n) (t :: l) none (t :: l) := by
  unfold commaTurn
  exact (accept_passes stop).bind (reads_pure _ _)

lemma expression_of_assignment (h : Reads (assignment readers) l n (t :: m))
    (stop : t.kind ≠ .comma) : Reads (expression readers) l n (t :: m) := by
  unfold expression
  exact (here_reads l).bind (h.bind (growing_none (commaTurn_end stop)))

/-! ### Tokens that end all levels -/

/-- The kinds of tokens that end an assignment. -/
def EndsAssignment (k : TokenKind) : Prop := k ∈ [.comma, .rparen, .rbracket, .rbrace, .colon, .eof]

instance (k : TokenKind) : Decidable (EndsAssignment k) := inferInstanceAs (Decidable (k ∈ _))

lemma EndsAssignment.stops {k : TokenKind} (h : EndsAssignment k) :
    EndsOperand k ∧ level true k = 0 ∧ k ≠ .question ∧ ¬ k.isAssignmentOperator ∧
      k ≠ .kwFunction := by
  have all : ∀ k ∈ ([.comma, .rparen, .rbracket, .rbrace, .colon, .eof] : List TokenKind),
      k ∉ [.dot, .lbracket, .lparen, .plusPlus, .minusMinus] ∧ level true k = 0 ∧
        k ≠ .question ∧ ¬ k.isAssignmentOperator ∧ k ≠ .kwFunction := by decide
  exact all k h

lemma assignment_of_binary (h : Reads (binary readers 0) l n (t :: m))
    (stop : EndsAssignment t.kind) : Reads (assignment readers) l n (t :: m) := by
  obtain ⟨-, -, question, operator, -⟩ := stop.stops
  exact assignment_of_conditional (conditional_of_binary h question) operator

lemma assignment_of_unary (h : Reads (unary readers) l n (t :: m))
    (stop : EndsAssignment t.kind) : Reads (assignment readers) l n (t :: m) :=
  assignment_of_binary (binary_of_unary h (Nat.le_of_eq stop.stops.2.1)) stop

end Grammar

end ModuleLint
