import ModuleLint.Grammar.Expression
import ModuleLint.Proofs.Grammar.LiteralShape

/-!
The shape of classes, operands and operators.
-/

namespace ModuleLint.Grammar

open Node Reader

variable {readers : Readers} (hr : YieldShapes readers)
include hr

/-! ### Classes -/

/-- At most one expression: a value that may be missing. -/
def OptionalValue (l : List Node) : Prop := l = [] ∨ ∃ value, l = [value] ∧ value.As IsExpression

lemma fieldValue_yields : Yields (fieldValue readers) OptionalValue := by
  unfold fieldValue
  refine .skip fun _ => .either ?_ (yields_pure (.inl rfl))
  exact .bind (hr .assignment) fun value hv => yields_pure (.inr ⟨value, rfl, hv⟩)

lemma field_yields (start : Span) (flags : NodeFlags) (name : Bytes) :
    Yields (field readers start flags name) (As (·.kind = .memberField)) := by
  unfold field
  refine .bind (fieldValue_yields hr) fun l hl => .skip fun _ => ?_
  refine yields_extended fun span => ⟨rfl, ?_⟩
  rcases hl with rfl | ⟨value, rfl, hv⟩
  · exact .mk trivial (by simp)
  · exact .mk hv.1 (by simp [hv.2])

lemma unnamedMember_yields (start : Span) (flags : NodeFlags) :
    Yields (unnamedMember readers start flags)
      (As fun n => n.IsExpression ∨ n.IsElement ∨ n.kind = .memberField) := by
  unfold unnamedMember
  refine .skip fun _ => .either ((method_yields hr start flags).mono fun n hn => ?_) ?_
  · exact hn.mono fun h => .inl (isExpression_of_function h)
  · exact (field_yields hr start flags []).mono fun n hn => hn.mono (.inr ∘ .inr)

lemma computedMember_yields (start : Span) (flags : NodeFlags) :
    Yields (computedMember readers start flags) (As IsMember) := by
  unfold computedMember
  refine .bind (computedKey_yields hr) fun key hk => ?_
  refine .bind (unnamedMember_yields hr start flags) fun value hv => yields_extended fun span => ?_
  exact (as_computed hk hv).mono (.inr ∘ .inr)

lemma namedMember_yields (start : Span) (flags : NodeFlags) :
    Yields (namedMember readers start flags) (As IsMember) := by
  unfold namedMember
  refine .skip fun key => .skip fun _ => .either ?_ ?_
  · exact (memberFunction_yields hr start flags key).mono fun n hn => hn.mono .inl
  · exact (field_yields hr start flags key.value).mono fun n hn => hn.mono (.inr ∘ .inl)

lemma classMember_yields : Yields (classMember readers) (As IsMember) := by
  unfold classMember
  refine .skip fun _ => .either yields_failHere (.skip fun start => .skip fun isStatic => ?_)
  refine .skip fun flags => .skip fun _ => .skip fun _ => .either ?_ ?_
  · exact computedMember_yields hr start flags
  · exact namedMember_yields hr start flags

lemma memberTurn_yields : Yields (memberTurn readers) fun u => ∀ n ∈ u.items, n.As IsMember := by
  unfold memberTurn
  refine .skip fun _ => .either (yields_pure (by simp [Turn.items])) ?_
  refine .skip fun _ => .either (yields_pure (by simp [Turn.items])) ?_
  exact .bind (classMember_yields hr) fun n hn => yields_pure (by simpa [Turn.items] using hn)

omit hr in
lemma className_yields (isExpression : Bool) :
    Yields (className isExpression) (As fun n => n.IsBareName ∨ n.kind = .empty) := by
  unfold className
  refine .skip fun _ => .either (.skip fun t => yields_pure (nameOf_bare.mono .inl)) ?_
  exact .either (.skip fun span => yields_pure (as_empty.mono .inr)) yields_failHere

lemma heritage_yields : Yields (heritage readers) (As IsExpressionOrEmpty) := by
  unfold heritage
  refine .skip fun _ => .either (.bind (hr .primary) fun base hb => ?_) ?_
  · exact (accesses_yields hr true hb).mono fun n hn => hn.orEmpty
  · exact .skip fun span => yields_pure (as_empty.mono .inr)

lemma classBody_yields : Yields (classBody readers) (As (·.kind = .classMembers)) := by
  unfold classBody
  refine .skip fun start => .skip fun _ => .bind (.repeatedly (memberTurn_yields hr)) fun l hl => ?_
  refine .skip fun _ => yields_node fun span => ⟨rfl, .mk (fun n hn => (hl n hn).1) ?_⟩
  exact fun n hn => (hl n hn).2

lemma classDefinition_yields (isExpression : Bool) :
    Yields (classDefinition readers isExpression) (As (·.kind = .classDef)) := by
  unfold classDefinition
  refine .skip fun keyword => .bind (className_yields isExpression) fun name hn => ?_
  refine .bind (heritage_yields hr) fun base hb => .bind (classBody_yields hr) fun members hm => ?_
  refine yields_node fun span => ⟨rfl, .mk ⟨hn.1, hb.1, hm.1, trivial⟩ ?_⟩
  simp [hn.2, hb.2, hm.2]

/-! ### Operands -/

lemma parenthesized_yields : Yields (parenthesized readers) (As IsExpression) := by
  unfold parenthesized
  refine .skip fun _ => .bind (.withIn true (hr .expression)) fun inner hi => ?_
  exact .skip fun _ => yields_pure hi

omit hr in
/-- The kinds of single tokens are those of expressions without children. -/
lemma literalKind?_leaf {t : TokenKind} {kind : NodeKind} {keepsValue : Bool}
    (h : literalKind? t = some (kind, keepsValue)) : kind.isExpression ∧ ChildrenFit kind [] := by
  cases t <;> cases h <;> exact ⟨rfl, trivial⟩

omit hr in
lemma literal_yields {kind : NodeKind} (keepsValue : Bool) (hk : kind.isExpression)
    (fit : ChildrenFit kind []) : Yields (literal kind keepsValue) (As IsExpression) := by
  unfold literal
  exact .skip fun t => yields_pure ⟨⟨hk, fun _ => rfl⟩, .mk fit (by simp)⟩

lemma asyncFunction_yields (isExpression : Bool) :
    Yields (asyncFunction readers isExpression) (As (·.kind = .function)) := by
  unfold asyncFunction
  exact .skip fun _ => function_yields hr isExpression { isAsync := true }

lemma functionExpression_yields (flags : NodeFlags) :
    Yields (function readers true flags) (As IsExpression) :=
  (function_yields hr true flags).mono fun _ hn => hn.mono isExpression_of_function

lemma primary_yields : Yields (primary readers) (As IsExpression) := by
  unfold primary
  refine .skip fun _ => .either ?_ (.skip fun t => ?_)
  · exact (asyncFunction_yields hr true).mono fun n hn => hn.mono isExpression_of_function
  split
  case h_1 kind keepsValue h =>
    obtain ⟨hk, fit⟩ := literalKind?_leaf h
    exact literal_yields keepsValue hk fit
  case h_2 =>
    split
    · exact parenthesized_yields hr
    · exact arrayLiteral_yields hr
    · exact objectLiteral_yields hr
    · exact functionExpression_yields hr {}
    · refine (classDefinition_yields hr true).mono fun n hn => hn.mono fun h => ?_
      simp [IsExpression, h, NodeKind.isExpression]
    · exact yields_failHere

lemma created_yields : Yields (created readers) (As IsExpression) := by
  unfold created
  exact .skip fun _ => .either (hr .newExpression) (primary_yields hr)

lemma createdArguments_yields :
    Yields (createdArguments readers) fun l => ∀ n ∈ l, n.As IsArgument := by
  unfold createdArguments
  exact .skip fun _ => .either (arguments_yields hr) (yields_pure (by simp))

lemma newExpression_yields : Yields (newExpression readers) (As IsExpression) := by
  unfold newExpression
  refine .skip fun keyword => .bind (created_yields hr) fun callee hc => ?_
  refine .bind (accesses_yields hr false hc) fun callee hc => ?_
  refine .bind (createdArguments_yields hr) fun args ha => yields_node fun span => ?_
  exact as_call (.inr rfl) hc ha

omit hr in
lemma afterOperand_yields (start : Span) {operand : Node} (ho : operand.As IsExpression) :
    Yields (afterOperand start operand) (As IsExpression) := by
  unfold afterOperand
  refine .skip fun t => .either (.either (.skip fun operator => ?_) yields_fail) (yields_pure ho)
  exact yields_extended fun span => as_expression rfl nofun ⟨ho.1, trivial⟩ (by simp [ho.2])

lemma operandBase_yields : Yields (operandBase readers) (As IsExpression) := by
  unfold operandBase
  exact .skip fun _ => .either (newExpression_yields hr) (primary_yields hr)

lemma operand_yields : Yields (operand readers) (As IsExpression) := by
  unfold operand
  refine .skip fun start => .bind (operandBase_yields hr) fun base hb => ?_
  exact .bind (accesses_yields hr true hb) fun n hn => afterOperand_yields start hn

/-! ### Operators -/

lemma unary_yields : Yields (unary readers) (As IsExpression) := by
  unfold unary
  have update {n : Node} (value : Bytes) (start : Span) (hn : n.As IsExpression) :
      Yields (extended ⟨.update, value, start, {}, [n]⟩) (As IsExpression) :=
    yields_extended fun span => as_expression rfl nofun ⟨hn.1, trivial⟩ (by simp [hn.2])
  refine .skip fun t => .either ?_ (.either ?_ ?_)
  refine .skip fun operator => .bind (hr .unary) fun n hn => ?_
  · exact yields_extended fun span => as_expression rfl nofun ⟨hn.1, trivial⟩ (by simp [hn.2])
  · refine .skip fun operator => .bind (hr .unary) fun n hn => .either (update _ _ hn) yields_fail
  · exact operand_yields hr

omit hr in
/-- Two operands and what joins them. -/
lemma pair_yields {kind : NodeKind} {value : Bytes} {start : Span} {a b : Node}
    (hk : kind ∈ [NodeKind.assign, .assignOp, .binary, .comma]) (ha : a.As IsExpression)
    (hb : b.As IsExpression) :
    Yields (extended ⟨kind, value, start, {}, [a, b]⟩) (As IsExpression) := by
  refine yields_extended fun span => ?_
  have below : ∀ c ∈ [a, b], c.WellFormed := by simp [ha.2, hb.2]
  simp only [List.mem_cons, List.not_mem_nil, or_false] at hk
  rcases hk with rfl | rfl | rfl | rfl <;> exact as_expression rfl nofun ⟨ha.1, hb.1, trivial⟩ below

lemma binaryTurn_yields (start : Span) (floor : Nat) {left : Node} (hl : left.As IsExpression) :
    Yields (binaryTurn readers start floor left) fun r => ∀ n ∈ r, n.As IsExpression := by
  unfold binaryTurn
  refine .skip fun tightness => .either (yields_pure (by simp)) (.skip fun operator => ?_)
  refine .bind (hr (.binary _)) fun right hright => ?_
  exact .bind (pair_yields (by simp) hl hright) fun n hn => yields_pure (by simpa using hn)

lemma binary_yields (floor : Nat) : Yields (binary readers floor) (As IsExpression) := by
  unfold binary
  refine .skip fun start => .bind (unary_yields hr) fun left hl => ?_
  exact .growing hl fun n hn => binaryTurn_yields hr start floor hn

lemma conditional_yields : Yields (conditional readers) (As IsExpression) := by
  unfold conditional
  refine .skip fun start => .bind (binary_yields hr 0) fun c hc => .skip fun _ => ?_
  refine .either ?_ (yields_pure hc)
  refine .bind (.withIn true (hr .assignment)) fun a ha => .skip fun _ => ?_
  refine .bind (hr .assignment) fun b hb => yields_node fun span => ?_
  exact as_expression rfl nofun ⟨hc.1, ha.1, hb.1, trivial⟩ (by simp [hc.2, ha.2, hb.2])

lemma assignmentRest_yields (start : Span) {target : Node} (ht : target.As IsExpression) :
    Yields (assignmentRest readers start target) (As IsExpression) := by
  unfold assignmentRest
  refine .skip fun operator => .either (.bind (hr .assignment) fun value hv => ?_) yields_fail
  exact .either (pair_yields (by simp) ht hv) (pair_yields (by simp) ht hv)

lemma assignment_yields : Yields (assignment readers) (As IsExpression) := by
  unfold assignment
  refine .skip fun _ => .either (arrowFunction_yields hr false) (.skip fun _ => .either ?_ ?_)
  · exact .skip fun _ => arrowFunction_yields hr true
  · refine .skip fun start => .bind (conditional_yields hr) fun target ht => .skip fun _ => ?_
    exact .either (assignmentRest_yields hr start ht) (yields_pure ht)

lemma commaTurn_yields (start : Span) {left : Node} (hl : left.As IsExpression) :
    Yields (commaTurn readers start left) fun r => ∀ n ∈ r, n.As IsExpression := by
  unfold commaTurn
  refine .skip fun _ => .either ?_ (yields_pure (by simp))
  refine .bind (assignment_yields hr) fun right hright => ?_
  exact .bind (pair_yields (by simp) hl hright) fun n hn => yields_pure (by simpa using hn)

lemma expression_yields : Yields (expression readers) (As IsExpression) := by
  unfold expression
  refine .skip fun start => .bind (assignment_yields hr) fun first hf => ?_
  exact .growing hf fun n hn => commaTurn_yields hr start hn

end ModuleLint.Grammar
