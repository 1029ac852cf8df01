import ModuleLint.Grammar.Expression
import ModuleLint.Proofs.Grammar.LiteralProgress

/-!
Progress of classes and expressions.
-/

namespace ModuleLint.Grammar

open Reader

variable {n : Nat} {readers : Readers} (hr : TakeBelow n readers)
include hr

/-! ### Classes -/

lemma fieldValue_goes : Goes n (fieldValue readers) := by
  unfold fieldValue
  exact .accept rfl ((hr .assignment).goes.bind fun value => goes_pure) goes_pure

lemma field_goes {start : Span} {flags : NodeFlags} {name : Bytes} :
    Goes n (field readers start flags name) := by
  unfold field
  exact (fieldValue_goes hr).bind fun value => semicolon_goes.bind fun _ => extended_goes

lemma unnamedMember_goes {start : Span} {flags : NodeFlags} :
    Goes n (unnamedMember readers start flags) := by
  unfold unnamedMember
  exact .isAt rfl (method_takes hr).goes.down.from (field_goes hr)

lemma computedMember_goes {start : Span} {flags : NodeFlags} :
    Goes n (computedMember readers start flags) := by
  unfold computedMember
  refine (computedKey_takes hr).goes.bind fun key => ?_
  exact (unnamedMember_goes hr).bind fun value => extended_goes

lemma namedMember_takes {start : Span} {flags : NodeFlags} :
    Takes n (namedMember readers start flags) := by
  unfold namedMember
  refine propertyKey_takes.then fun key => ?_
  exact .isAt rfl (memberFunction_goes hr).from (field_goes hr)

lemma classMember_takes : Takes n (classMember readers) := by
  unfold classMember
  refine .here fun isBlock => .either moves_failHere (.here fun start => ?_)
  refine acceptWord_goes.bind fun isStatic => modifiers_goes.bind fun flags => ?_
  refine .bind (accept_goes rfl) fun _ => .accept rfl ?_ (namedMember_takes hr)
  exact computedMember_goes hr

/-- A semicolon between members is a turn of its own. -/
lemma memberTurn_turns : Turns n (memberTurn readers) := by
  unfold memberTurn
  refine .untilAny (by decide) (moves_stay nofun) (Moves.from (.accept rfl goes_pure ?_))
  exact (classMember_takes hr).then fun m => goes_pure

omit hr in
lemma className_goes {isExpression : Bool} : Goes n (className isExpression) := by
  unfold className
  refine .isAt rfl (advance_goes.from.bind fun t => goes_pure) (.either ?_ moves_failHere)
  exact .here fun span => goes_pure

lemma heritage_goes : Goes (n + 1) (heritage readers) := by
  unfold heritage
  refine .acceptFirst rfl ?_ (.here fun span => goes_pure)
  exact (hr .primary).goes.bind fun base => (accesses_goes hr base).down

lemma classBody_takes : Takes (n + 1) (classBody readers) := by
  unfold classBody
  refine .here fun start => .first (expect_takes rfl) fun _ => ?_
  refine (memberTurn_turns hr).repeatedly.bind fun members => ?_
  exact .bind (expect_goes rfl) fun _ => node_goes

/-- A class takes a token with its body, wherever it starts. -/
lemma classDefinition_takes {isExpression : Bool} :
    Takes (n + 1) (classDefinition readers isExpression) := by
  unfold classDefinition
  refine advance_goes.bind fun keyword => className_goes.bind fun name => ?_
  refine (heritage_goes hr).bind fun base => (classBody_takes hr).then fun members => ?_
  exact node_goes

/-! ### Operands -/

lemma parenthesized_takes : TakesInside (n + 1) (parenthesized readers) := by
  unfold parenthesized
  refine advance_takes.first fun _ => .bind (hr .expression).goes.withIn fun inner => ?_
  exact .bind (expect_goes rfl) fun _ => goes_pure

omit hr in
lemma literal_takes {kind : NodeKind} {keepsValue : Bool} :
    TakesInside n (literal kind keepsValue) := by
  unfold literal
  exact advance_takes.then fun t => goes_pure

lemma asyncFunction_takes {isExpression : Bool} :
    Takes (n + 1) (asyncFunction readers isExpression) := by
  unfold asyncFunction
  exact advance_goes.bind fun _ => function_takes hr

omit hr in
/-- The token that is known to be next is not the end of the text. -/
lemma inside_of_eq {t : Token} (ht : t.kind ≠ .eof) : ∀ u, u = t → u.kind ≠ .eof := by
  rintro u rfl
  exact ht

lemma primary_takes : Takes (n + 1) (primary readers) := by
  unfold primary
  refine .here fun isAsync => .either (asyncFunction_takes hr) (.current fun t _ => ?_)
  split
  case h_1 kind keepsValue hk =>
    refine literal_takes.within (inside_of_eq fun ht => ?_)
    rw [ht] at hk
    cases hk
  case h_2 hk =>
    split
    case h_1 ht => exact (parenthesized_takes hr).within (inside_of_eq (by simp [ht]))
    case h_2 ht => exact (arrayLiteral_takes hr).within (inside_of_eq (by simp [ht]))
    case h_3 ht => exact (objectLiteral_takes hr).within (inside_of_eq (by simp [ht]))
    case h_4 => exact (function_takes hr).from
    case h_5 => exact (classDefinition_takes hr).from
    case h_6 => exact moves_failHere

lemma created_takes : Takes n (created readers) := by
  unfold created
  exact .isAt rfl (hr .newExpression).from (primary_takes hr).down

lemma createdArguments_goes : Goes (n + 1) (createdArguments readers) := by
  unfold createdArguments
  exact .isAt rfl (arguments_takes hr).goes goes_pure

lemma newExpression_inside : TakesInside (n + 1) (newExpression readers) := by
  unfold newExpression
  refine advance_takes.first fun keyword => (created_takes hr).goes.bind fun callee => ?_
  refine (accesses_goes hr callee).down.bind fun callee => ?_
  exact (createdArguments_goes hr).down.bind fun args => node_goes

omit hr in
lemma afterOperand_goes {start : Span} {operand : Node} : Goes n (afterOperand start operand) := by
  unfold afterOperand
  refine .here fun t => .either (.either ?_ moves_fail) goes_pure
  exact advance_goes.bind fun operator => extended_goes

lemma operandBase_takes : Takes (n + 1) (operandBase readers) := by
  unfold operandBase
  exact .isAt rfl (newExpression_inside hr) (primary_takes hr)

lemma operand_takes : Takes (n + 1) (operand readers) := by
  unfold operand
  refine .here fun start => (operandBase_takes hr).first fun base => ?_
  exact (accesses_goes hr base).down.bind fun m => afterOperand_goes

/-- At the end of the text nothing is created. -/
lemma created_atEnd : Moves (·.kind = .eof) (n + 1) (fun _ => True) (created readers) := by
  unfold created
  refine .look fun isNew => .ite (fun hb => ?_) fun _ => (primary_takes hr).from
  intro s _ _ ⟨ht, u, hu, hk⟩
  rw [hu, ht, hb] at hk
  exact absurd hk (by decide)

lemma newExpression_takes : Takes (n + 1) (newExpression readers) := by
  intro s hs hn _
  by_cases ht : s.current.kind = .eof
  · have stay : advance s = .ok s.current s := by rw [advance, step_atEnd ht]
    unfold newExpression
    rw [bind_of_ok stay]
    refine (created_atEnd hr).then (fun callee => ?_) s hs hn ht
    refine (accesses_goes hr callee).bind fun callee => ?_
    exact (createdArguments_goes hr).bind fun args => node_goes
  · exact newExpression_inside hr s hs hn ht

/-! ### Operators -/

lemma unary_takes : Takes (n + 1) (unary readers) := by
  unfold unary
  refine .current fun t _ => .ite (fun ht => ?_) fun _ => .ite (fun ht => ?_) fun _ => ?_
  · refine (advance_takes.first fun operator => ?_).within (inside_of_eq fun he => ?_)
    · exact (hr .unary).goes.bind fun argument => extended_goes
    · rw [he] at ht
      cases ht
  · refine (advance_takes.first fun operator => ?_).within (inside_of_eq fun he => ?_)
    · exact (hr .unary).goes.bind fun argument => .either extended_goes moves_fail
    · rw [he] at ht
      rcases ht with ht | ht <;> cases ht
  · exact (operand_takes hr).from

lemma binaryTurn_grows {start : Span} {floor : Nat} (left : Node) :
    Grows (n + 1) (binaryTurn readers start floor left) := by
  unfold binaryTurn
  refine .look fun tightness => .ite (fun _ => moves_stay nofun) fun hl => ?_
  have right : TakesInside (n + 1) (do
      let operator ← advance
      let right ← readers
        (.binary (if operator.kind = .starStar then tightness - 1 else tightness))
      return some (← extended ⟨.binary, operator.lexeme, start, {}, [left, right]⟩)) :=
    advance_takes.first fun operator => (hr _).goes.bind fun right =>
      extended_goes.bind fun m => goes_pure
  refine right.takes.within fun t ⟨_, s, hs, hl'⟩ ht => hl ?_
  rw [← hl', hs, ht]
  exact Nat.zero_le _

lemma binary_takes {floor : Nat} : Takes (n + 1) (binary readers floor) := by
  unfold binary
  refine .here fun start => (unary_takes hr).first fun left => ?_
  exact Grows.growing (fun m => (binaryTurn_grows hr m).down) left

lemma conditional_takes : Takes (n + 1) (conditional readers) := by
  unfold conditional
  refine .here fun start => (binary_takes hr).first fun condition => .accept rfl ?_ goes_pure
  refine .bind (hr .assignment).goes.withIn fun whenTrue => .bind (expect_goes rfl) fun _ => ?_
  exact (hr .assignment).goes.bind fun whenFalse => node_goes

lemma assignmentRest_goes {start : Span} {target : Node} :
    Goes n (assignmentRest readers start target) := by
  unfold assignmentRest
  refine advance_goes.bind fun operator => .either ?_ moves_fail
  exact (hr .assignment).goes.bind fun value => .either node_goes extended_goes

lemma assignment_takes : Takes (n + 1) (assignment readers) := by
  unfold assignment
  refine .here fun isArrow => .either (arrowFunction_takes hr) (.here fun isAsync => .either ?_ ?_)
  · exact advance_goes.bind fun _ => arrowFunction_takes hr
  · refine .here fun start => (conditional_takes hr).first fun target => ?_
    exact .here fun isOperator => .either (assignmentRest_goes hr) goes_pure

lemma commaTurn_grows {start : Span} (left : Node) :
    Grows (n + 1) (commaTurn readers start left) := by
  unfold commaTurn
  refine .acceptFirst rfl ?_ (moves_stay nofun)
  exact (assignment_takes hr).goes.down.bind fun right => node_goes.bind fun m => goes_pure

lemma expression_takes : Takes (n + 1) (expression readers) := by
  unfold expression
  refine .here fun start => (assignment_takes hr).first fun first => ?_
  exact Grows.growing (fun m => (commaTurn_grows hr m).down) first

end ModuleLint.Grammar
