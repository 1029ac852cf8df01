import ModuleLint.Proofs.Grammar.OperandReads
import ModuleLint.Proofs.Grammar.ScriptRespan

/-!
Reading inverts printing.

With operators added to operands, every expression that can be printed is read back. Spans are left
out on both sides: the tokens may come from anywhere.
-/

namespace ModuleLint

open Token Node

namespace Grammar

open Reader

variable {quote : TokenKind → Bytes → Bytes} {depth : Nat} {l m : List Token} {t u : Token}
  {n : Node} {span : Span} {k : TokenKind}

/-! ### Operators -/

lemma readBack_unary {value : Node} (hk : isUnaryOperator k) (h : ReadBack quote value) :
    ReadBack quote ⟨.unary, k.text, span, {}, [value]⟩ := by
  have operator : k ∈ TokenKind.operators ∧ k ≠ .eof := by
    cases k <;> cases hk <;> decide
  have print_eq : (Node.mk .unary k.text span {} [value]).print quote =
      sign k :: value.part quote := by
    have shape : (Node.mk .unary k.text span {} [value]).print quote =
        sign (.spelled k.text) :: value.part quote := Node.print_eq ..
    rwa [TokenKind.spelled_text operator.1] at shape
  refine .of_unary (by simp [partKinds]) print_eq fun {depth t m} stop deep => ?_
  have reads := h.reads_unary stop.stops.1 (Nat.le_of_succ_le_succ deep)
  unfold unary
  refine (current_reads (sign k) _).bind ?_
  rw [if_pos (show isUnaryOperator (sign k).kind from hk)]
  refine (advance_reads operator.2 (by simp)).bind (reads.bind ?_)
  rw [bare_mk]
  exact extended_reads _ _ _ _ _

lemma update_operator (hk : k = .plusPlus ∨ k = .minusMinus) :
    ¬ isUnaryOperator (sign k).kind ∧ k ∈ TokenKind.operators ∧ k ≠ .eof ∧
      (k ≠ .dot ∧ k ≠ .lbracket) ∧ k ≠ .lparen := by
  rcases hk with rfl | rfl <;> decide

lemma isReference_bare (n : Node) : isReference n.bare = isReference n := by
  simp [isReference]

lemma readBack_updateAfter {target : Node} (hk : k = .plusPlus ∨ k = .minusMinus)
    (h : ReadBack quote target) (ht : isReference target) :
    ReadBack quote ⟨.update, k.text, span, { isAfterOperand := true }, [target]⟩ := by
  obtain ⟨-, operator, known, noAccess, noCall⟩ := update_operator hk
  have isUpdate : (sign k).kind = .plusPlus ∨ (sign k).kind = .minusMinus := hk
  have print_eq : (Node.mk .update k.text span { isAfterOperand := true } [target]).print quote =
      target.part quote ++ [sign k] := by
    have shape : (Node.mk .update k.text span { isAfterOperand := true } [target]).print quote =
        target.part quote ++ [sign (.spelled k.text)] := Node.print_eq ..
    rwa [TokenKind.spelled_text operator] at shape
  refine .of_unary (by simp [partKinds]) print_eq fun {depth t m} stop deep => ?_
  rw [List.append_assoc] at deep ⊢
  have base := h.operandBase (by simp) deep
  have after : Reads (afterOperand .none target.bare) (sign k :: t :: m)
      (Node.mk .update k.text span { isAfterOperand := true } [target]).bare (t :: m) := by
    unfold afterOperand
    refine (current_reads _ _).bind ?_
    rw [if_pos ⟨isUpdate, by simp [sign, word]⟩, isReference_bare, if_pos ht]
    refine (advance_reads known (by simp)).bind ?_
    rw [bare_mk]
    exact extended_reads _ _ _ _ _
  rw [h.opens] at base ⊢
  refine unary_of_operand ?_ (by decide)
  unfold operand
  refine (here_reads _).bind (base.bind ?_)
  exact (accesses_end noAccess (.inr noCall)).bind after

lemma readBack_updateBefore {target : Node} (hk : k = .plusPlus ∨ k = .minusMinus)
    (h : ReadBack quote target) (ht : isReference target) :
    ReadBack quote ⟨.update, k.text, span, {}, [target]⟩ := by
  obtain ⟨noUnary, operator, known, -⟩ := update_operator hk
  have isUpdate : (sign k).kind = .plusPlus ∨ (sign k).kind = .minusMinus := hk
  have print_eq : (Node.mk .update k.text span {} [target]).print quote =
      sign k :: target.part quote := by
    have shape : (Node.mk .update k.text span {} [target]).print quote =
        sign (.spelled k.text) :: target.part quote := Node.print_eq ..
    rwa [TokenKind.spelled_text operator] at shape
  refine .of_unary (by simp [partKinds]) print_eq fun {depth t m} stop deep => ?_
  have reads := h.reads_unary stop.stops.1 (Nat.le_of_succ_le_succ deep)
  unfold unary
  refine (current_reads (sign k) _).bind ?_
  rw [if_neg noUnary, if_pos isUpdate]
  refine (advance_reads known (by simp)).bind (reads.bind ?_)
  rw [isReference_bare, if_pos ht, bare_mk]
  exact extended_reads _ _ _ _ _

/-- The tokens of two operands with an operator between them. -/
lemma print_between {kind : NodeKind} {left right : Node}
    (shape : (Node.mk kind k.text span {} [left, right]).print quote =
      left.part quote ++ sign (.spelled k.text) :: right.part quote)
    (hk : k ∈ TokenKind.operators) :
    (Node.mk kind k.text span {} [left, right]).print quote =
      left.part quote ++ sign k :: right.part quote := by
  rwa [TokenKind.spelled_text hk] at shape

lemma binary_operator (hk : 0 < level true k) :
    k ∈ TokenKind.operators ∧ k ≠ .eof ∧ EndsOperand k := by
  cases k <;> first | cases hk; done | decide

/-- Both operands are groups, so how tightly the operator binds does not matter. -/
lemma readBack_binary {left right : Node} (hk : 0 < level true k) (hl : ReadBack quote left)
    (hr : ReadBack quote right) : ReadBack quote ⟨.binary, k.text, span, {}, [left, right]⟩ := by
  obtain ⟨operator, known, ends⟩ := binary_operator hk
  refine .of_assignment (by simp [partKinds]) (print_between (Node.print_eq ..) operator)
    fun {depth t m} stop deep => assignment_of_binary ?_ stop
  obtain ⟨endsOperand, loose, -⟩ := stop.stops
  rw [List.append_assoc, List.cons_append] at deep ⊢
  have readLeft := hl.unary ends deep
  -- where the operator groups to the right, the floor is lower, but no operator follows
  have readRight {floor : Nat} :
      Reads (read depth (.binary floor)) (right.part quote ++ t :: m) right.bare (t :: m) := by
    refine hr.reads_binary endsOperand (by omega) ?_
    simp only [List.length_append, List.length_cons] at deep ⊢
    omega
  unfold binary
  have taken : (t :: m).length < (sign k :: (right.part quote ++ t :: m)).length := by
    simp only [List.length_append, List.length_cons]
    omega
  refine (here_reads _).bind (readLeft.bind (growing_once ?_ taken
    (binaryTurn_end (Nat.le_of_eq loose))))
  unfold binaryTurn
  refine (tightness_reads _ _).bind ?_
  rw [if_neg (show ¬ level true (sign k).kind ≤ 0 from Nat.not_le_of_lt hk)]
  refine (advance_reads known (by simp)).bind (readRight.bind ?_)
  rw [bare_mk]
  exact (extended_reads _ _ _ _ _).map

lemma readBack_conditional {condition whenTrue whenFalse : Node} (hc : ReadBack quote condition)
    (ht : ReadBack quote whenTrue) (hf : ReadBack quote whenFalse) :
    ReadBack quote ⟨.conditional, [], span, {}, [condition, whenTrue, whenFalse]⟩ := by
  have print_eq : (Node.mk .conditional [] span {} [condition, whenTrue, whenFalse]).print quote =
      condition.part quote ++ sign .question :: whenTrue.part quote ++
        sign .colon :: whenFalse.part quote :=
    Node.print_eq ..
  refine .of_assignment (by simp [partKinds]) print_eq fun {depth t m} stop deep => ?_
  simp only [List.append_assoc, List.cons_append] at deep ⊢
  have readCondition : Reads (binary (read depth) 0)
      (condition.part quote ++ sign .question :: (whenTrue.part quote ++
        sign .colon :: (whenFalse.part quote ++ t :: m))) condition.bare _ :=
    hc.binary (by decide) (by decide) deep
  have readTrue : Reads (read depth .assignment)
      (whenTrue.part quote ++ sign .colon :: (whenFalse.part quote ++ t :: m)) whenTrue.bare
      (sign .colon :: (whenFalse.part quote ++ t :: m)) := by
    refine ht.reads_assignment (by decide) ?_
    simp only [List.length_append, List.length_cons] at deep ⊢
    omega
  have readFalse : Reads (read depth .assignment) (whenFalse.part quote ++ t :: m) whenFalse.bare
      (t :: m) := by
    refine hf.reads_assignment stop ?_
    simp only [List.length_append, List.length_cons] at deep ⊢
    omega
  refine assignment_of_conditional ?_ stop.stops.2.2.2.1
  unfold conditional
  refine (here_reads _).bind (readCondition.bind ?_)
  refine (accept_reads rfl (by decide) (by simp)).bind (readTrue.withIn.bind ?_)
  refine (expect_reads rfl (by decide) (by simp)).bind (readFalse.bind ?_)
  rw [bare_mk]
  exact node_reads _ _ _

/-! ### Assignments -/

lemma assignment_operator (hk : k.isAssignmentOperator) :
    k ∈ TokenKind.operators ∧ k ≠ .eof ∧ EndsOperand k ∧ level true k = 0 ∧ k ≠ .question := by
  cases k <;> first | cases hk; done | decide

/-- A target and the operator behind it, up to the value. -/
lemma assignment_operation {target value : Node} (hk : k.isAssignmentOperator)
    (hl : ReadBack quote target) (hr : ReadBack quote value) (stop : EndsAssignment t.kind)
    (deep : (target.part quote ++ sign k :: (value.part quote ++ t :: m)).length ≤ depth + 1)
    (rest : Reads (read depth .assignment) (value.part quote ++ t :: m) value.bare (t :: m) →
      Reads (assignmentRest (read depth) .none target.bare)
        (sign k :: (value.part quote ++ t :: m)) n (t :: m)) :
    Reads (assignment (read depth)) (target.part quote ++ sign k :: (value.part quote ++ t :: m)) n
      (t :: m) := by
  obtain ⟨-, -, ends, loose, question⟩ := assignment_operator hk
  have readTarget := conditional_of_binary (hl.binary ends (Nat.le_of_eq loose) deep) question
  have readValue : Reads (read depth .assignment) (value.part quote ++ t :: m) value.bare
      (t :: m) := by
    refine hr.reads_assignment stop ?_
    simp only [List.length_append, List.length_cons] at deep ⊢
    omega
  unfold assignment
  refine (isArrow_reads _).bind ((isAsyncArrow_reads _).bind ((here_reads _).bind ?_))
  refine readTarget.bind ((isAssignmentOperator_reads _ _).bind ?_)
  rw [if_pos (show (sign k).kind.isAssignmentOperator from hk)]
  exact rest readValue

lemma readBack_assign {target value : Node} (hl : ReadBack quote target) (ht : isAssignable target)
    (hr : ReadBack quote value) : ReadBack quote ⟨.assign, [], span, {}, [target, value]⟩ := by
  have print_eq : (Node.mk .assign [] span {} [target, value]).print quote =
      target.part quote ++ sign .assign :: value.part quote := Node.print_eq ..
  have bare : isAssignable target.bare := by
    simpa [isAssignable, isReference] using ht
  refine .of_assignment (by simp [partKinds]) print_eq fun {depth t m} stop deep => ?_
  rw [List.append_assoc] at deep ⊢
  refine assignment_operation (by decide) hl hr stop deep fun readValue => ?_
  unfold assignmentRest
  refine (advance_reads (by simp) (by simp)).bind ?_
  change Reads (if isAssignable target.bare then _ else _) _ _ _
  rw [if_pos bare, bare_mk]
  exact readValue.bind (node_reads _ _ _)

lemma readBack_assignOp {target value : Node} (hk : k.isAssignmentOperator ∧ k ≠ .assign)
    (hl : ReadBack quote target) (ht : isReference target) (hr : ReadBack quote value) :
    ReadBack quote ⟨.assignOp, k.text, span, {}, [target, value]⟩ := by
  obtain ⟨operator, known, -⟩ := assignment_operator hk.1
  have compound : ((sign k).kind == .assign) = false := beq_eq_false_iff_ne.mpr hk.2
  refine .of_assignment (by simp [partKinds]) (print_between (Node.print_eq ..) operator)
    fun {depth t m} stop deep => ?_
  rw [List.append_assoc] at deep ⊢
  refine assignment_operation hk.1 hl hr stop deep fun readValue => ?_
  unfold assignmentRest
  refine (advance_reads known (by simp)).bind ?_
  rw [compound]
  change Reads (if isReference target.bare then _ else _) _ _ _
  rw [isReference_bare, if_pos ht, bare_mk]
  exact readValue.bind (extended_reads _ _ _ _ _)

/-! ### Commas -/

lemma readBack_comma {left right : Node} (hl : ReadBack quote left) (hr : ReadBack quote right) :
    ReadBack quote ⟨.comma, [], span, {}, [left, right]⟩ where
  kind := by simp [partKinds]
  reads {depth t m} stop deep := by
    have print_eq : (Node.mk .comma [] span {} [left, right]).print quote =
        left.part quote ++ sign .comma :: right.part quote := Node.print_eq ..
    obtain ⟨ends, noComma⟩ := ends_of_last stop
    rw [print_eq] at deep ⊢
    refine reads_of_production (fun depth deep => ?_) deep
    rw [List.append_assoc, List.cons_append] at deep ⊢
    have readLeft := hl.assignment (by decide) deep
    have readRight : Reads (assignment (read depth)) (right.part quote ++ t :: m) right.bare
        (t :: m) := by
      refine hr.assignment ends ?_
      simp only [List.length_append, List.length_cons] at deep ⊢
      omega
    change Reads (expression (read depth)) _ _ _
    unfold expression
    have taken : (t :: m).length < (sign .comma :: (right.part quote ++ t :: m)).length := by
      simp only [List.length_append, List.length_cons]
      omega
    refine (here_reads _).bind (readLeft.bind (growing_once ?_ taken (commaTurn_end noComma)))
    unfold commaTurn
    refine (accept_reads rfl (by decide) (by simp)).bind (readRight.bind ?_)
    rw [bare_mk]
    exact (node_reads _ _ _).map

/-! ### All expressions -/

/-- What is shown of a node where it stands. -/
def Restored (quote : TokenKind → Bytes → Bytes) : Role → Node → Prop
  | .expression, n => ReadBack quote n
  | .element, n => IsHole quote n ∨ ReadsItem quote spreadable .rbracket n
  | .property, n => ReadsItem quote objectProperty .rbrace n
  | .argument, n => ReadsItem quote spreadable .rparen n

lemma literal_readBack {kind : NodeKind} {text : Bytes}
    (h : kind ∈ [NodeKind.name, .numberLit, .stringLit, .regexLit, .templateLit]) :
    ReadBack quote ⟨kind, text, span, {}, []⟩ := by
  simp only [List.mem_cons, List.not_mem_nil, or_false] at h
  rcases h with rfl | rfl | rfl | rfl | rfl <;>
    exact readBack_literal (by decide) (Node.print_eq ..) rfl rfl rfl

lemma keyword_readBack {kind : NodeKind}
    (h : kind ∈ [NodeKind.thisExpr, .superExpr, .nullLit, .trueLit, .falseLit]) :
    ReadBack quote ⟨kind, [], span, {}, []⟩ := by
  simp only [List.mem_cons, List.not_mem_nil, or_false] at h
  rcases h with rfl | rfl | rfl | rfl | rfl <;>
    exact readBack_literal (by decide) (Node.print_eq ..) rfl rfl rfl

lemma readsItem_spread_in {role : Role} (hr : role ≠ .expression) (h : ReadBack quote n) :
    Restored quote role ⟨.spread, [], span, {}, [n]⟩ := by
  cases role with
  | expression => exact absurd rfl hr
  | element => exact .inr (readsItem_spread (fun _ => rfl) (by decide) h)
  | property => exact readsItem_spread (fun _ => rfl) (by decide) h
  | argument => exact readsItem_spread (fun _ => rfl) (by decide) h

/-- Every node that can be printed is read where it stands. -/
lemma restored_of_printable {role : Role} (h : Printable role n) : Restored quote role n := by
  induction h with
  | literal h => exact literal_readBack h
  | keyword h => exact keyword_readBack h
  | array _ ih => exact readBack_array ih
  | object _ ih => exact readBack_object ih
  | unary hk _ ih => exact readBack_unary hk ih
  | update isAfterOperand hk _ ht ih =>
    cases isAfterOperand with
    | false => exact readBack_updateBefore hk ih ht
    | true => exact readBack_updateAfter hk ih ht
  | binary hk _ _ left right => exact readBack_binary hk left right
  | conditional _ _ _ condition whenTrue whenFalse =>
    exact readBack_conditional condition whenTrue whenFalse
  | assign _ ht _ target value => exact readBack_assign target ht value
  | assignOp hk _ ht _ target value => exact readBack_assignOp hk target ht value
  | comma _ _ left right => exact readBack_comma left right
  | getProp _ ih => exact readBack_getProp ih
  | getElem _ _ object index => exact readBack_getElem object index
  | call _ _ callee args => exact readBack_call callee args
  | new _ _ callee args => exact readBack_new callee args
  | item hr _ ih =>
    rcases hr with rfl | rfl
    · exact .inr (ReadBack.readsItem ih (by decide))
    · exact ReadBack.readsItem ih (by decide)
  | spread hr _ ih => exact readsItem_spread_in hr ih
  | hole => exact .inl isHole_empty
  | valued _ ih => exact readsItem_valued ih
  | shorthand => exact readsItem_shorthand
  | defaulted _ ih => exact readsItem_defaulted ih
  | computed _ _ key value => exact readsItem_computed key value

/-- **Reading inverts printing.** The tokens of an expression, however its strings and templates are
written, are read up to the end of the text and without an error, and give the expression back up to
spans. -/
theorem readFrom_print {n : Node} (h : Printable .expression n) {first : Token}
    {rest : List Token} (tokens : (first :: rest).map (·.respan .forget) =
      n.print quote ++ [Token.word .eof []]) :
    ∃ m s, readFrom .expression first rest = .ok m s ∧ m.respan .forget = n.respan .forget ∧
      s.current.kind = .eof ∧ s.ahead = [] ∧ s.faults = [] := by
  -- first without spans, where the tokens are the printed ones
  have calm : ((start first rest).respan .forget).Calm := by
    refine ⟨rfl, rfl, ?_⟩
    change AllQuiet ((first :: rest).map (·.respan .forget))
    rw [tokens]
    simp [allQuiet_print]
  have deep : (n.print quote ++ [Token.word .eof []]).length ≤ rest.length + 2 := by
    rw [← tokens, List.length_map, List.length_cons]
    omega
  have restored : ReadBack quote n := restored_of_printable h
  obtain ⟨t, reads, -, atEnd, faults⟩ := restored.reads (.inr rfl) deep _ calm tokens
  -- and then with them: reading commutes with forgetting them
  have carried := read_carries .forget (rest.length + 2) .expression (start first rest)
  rw [reads] at carried
  unfold readFrom
  cases result : read (rest.length + 2) .expression (start first rest) with
  | stuck =>
    rw [result] at carried
    cases carried
  | fault fault s =>
    rw [result] at carried
    cases carried
  | ok m s =>
    rw [result] at carried
    obtain ⟨same, rfl⟩ := Reply.ok.inj carried
    obtain ⟨current, ahead⟩ := List.cons.inj atEnd
    refine ⟨m, s, rfl, same.symm, ?_, List.map_eq_nil_iff.mp ahead, List.map_eq_nil_iff.mp faults⟩
    exact congrArg Token.kind current

/-- `[, ("b"),]`, with a hole and a string in its quotes. -/
theorem readFrom_print_array :
    ∃ m s, readFrom .expression (sign .lbracket)
        [sign .comma, sign .lparen, ⟨.string, .none, ascii "'b'", ascii "b", false⟩, sign .rparen,
          sign .comma, sign .rbracket, word .eof []] = .ok m s ∧
      m.respan .forget = Node.of .arrayLit .none
        [.of .empty .none [], .leaf .stringLit (ascii "b") .none] ∧
      s.current.kind = .eof ∧ s.ahead = [] ∧ s.faults = [] :=
  @readFrom_print (fun _ text => ascii "'" ++ text ++ ascii "'")
    ⟨.arrayLit, [], .none, {}, [.of .empty .none [], .leaf .stringLit (ascii "b") .none]⟩
    (.array (by
      simp only [List.mem_cons, List.not_mem_nil, or_false, forall_eq_or_imp, forall_eq]
      exact ⟨.hole, .item (.inl rfl) (.literal (by decide))⟩)) _ _ (by rfl)

end Grammar

end ModuleLint
