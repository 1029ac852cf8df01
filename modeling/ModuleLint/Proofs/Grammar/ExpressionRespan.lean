import ModuleLint.Grammar.Expression
import ModuleLint.Proofs.Grammar.Respan

/-!
Changes of spans in patterns, functions, literals, classes and expressions.

The readers of these hand changed spans on, given that the readers of the nonterminals inside do.
-/

namespace ModuleLint.Grammar

open Reader

/-- Each reader of a nonterminal hands changed spans on. -/
def CarryAll (φ : Respan) (readers : Readers) : Prop := ∀ nt, Carries φ (readers nt) (readers nt)

variable {φ : Respan} {readers : Readers}

/-! ### Patterns -/

lemma propertyKey_respans : Respans φ (·.respan φ) propertyKey propertyKey := by
  unfold propertyKey
  exact (current_respans φ).bind fun t => .ite (advance_respans φ) respans_failHere

lemma objectRest_carries (start : Span) :
    Carries φ (objectRest start) (objectRest (φ.span start)) := by
  unfold objectRest
  exact (expect_respans φ _ _).bind fun t => node_carries φ .rest start [nameOf t]

variable (hr : CarryAll φ readers)
include hr

lemma computedKey_carries : Carries φ (computedKey readers) (computedKey readers) := by
  unfold computedKey
  exact (hr .assignment).bind fun key => (expect_respans φ _ _).bind fun _ => carries_pure key

lemma computedEntry_carries (start : Span) :
    Carries φ (computedEntry readers start) (computedEntry readers (φ.span start)) := by
  unfold computedEntry
  refine (computedKey_carries hr).bind fun key => (expect_respans φ _ _).bind fun _ => ?_
  exact (hr .bindingElement).bind fun element => node_carries φ _ start [key, element]

lemma entryValue_carries (start : Span) (key : Token) :
    Carries φ (entryValue readers start key)
      (entryValue readers (φ.span start) (key.respan φ)) := by
  unfold entryValue
  refine (accept_ignores φ _).bind fun _ => .ite (hr .bindingElement) (.ite respans_fail ?_)
  refine (accept_ignores φ _).bind fun _ => .ite ?_ (carries_pure (nameOf key))
  exact (hr .assignment).bind fun fallback => node_carries φ _ start [nameOf key, fallback]

lemma objectEntry_carries : Carries φ (objectEntry readers) (objectEntry readers) := by
  unfold objectEntry
  refine (here_respans φ).bind fun start => (accept_ignores φ _).bind fun _ => ?_
  refine .ite (objectRest_carries start) ((accept_ignores φ _).bind fun _ => ?_)
  refine .ite (computedEntry_carries hr start) (propertyKey_respans.bind fun key => ?_)
  exact (entryValue_carries hr start key).bind fun value => extended_mk φ _ _ start _ [value]

lemma objectPattern_carries : Carries φ (objectPattern readers) (objectPattern readers) := by
  unfold objectPattern
  refine (advance_respans φ).bind fun brace => (objectEntry_carries hr).list _ _ |>.bind fun l => ?_
  exact (expect_respans φ _ _).bind fun _ => node_carries φ _ brace.span l

lemma restElement_carries : Carries φ (restElement readers) (restElement readers) := by
  unfold restElement
  refine (advance_respans φ).bind fun dots => (hr .bindingTarget).bind fun target => ?_
  exact node_carries φ _ dots.span [target]

lemma listElement_carries : Carries φ (listElement readers) (listElement readers) := by
  unfold listElement
  exact (isAt_ignores φ _).bind fun _ => .ite (restElement_carries hr) (hr .bindingElement)

lemma arrayPattern_carries : Carries φ (arrayPattern readers) (arrayPattern readers) := by
  unfold arrayPattern
  refine (advance_respans φ).bind fun bracket => ?_
  refine ((listElement_carries hr).list _ _).bind fun l => (expect_respans φ _ _).bind fun _ => ?_
  exact node_carries φ _ bracket.span l

lemma pattern_carries : Carries φ (pattern readers) (pattern readers) := by
  unfold pattern
  exact (isAt_ignores φ _).bind fun _ => .ite (objectPattern_carries hr) (arrayPattern_carries hr)

lemma bindingTarget_carries : Carries φ (bindingTarget readers) (bindingTarget readers) := by
  unfold bindingTarget
  refine (isAtAny_ignores φ _).bind fun _ => .ite (pattern_carries hr) ?_
  exact (expect_respans φ _ _).bind fun t => carries_pure (nameOf t)

lemma bindingElement_carries : Carries φ (bindingElement readers) (bindingElement readers) := by
  unfold bindingElement
  refine (here_respans φ).bind fun start => (bindingTarget_carries hr).bind fun target => ?_
  refine (accept_ignores φ _).bind fun _ => .ite ?_ (carries_pure target)
  exact (hr .assignment).bind fun fallback => node_carries φ _ start [target, fallback]

/-! ### Functions -/

lemma block_carries : Carries φ (block readers) (block readers) := by
  unfold block
  refine (here_respans φ).bind fun start => (expect_respans φ _ _).bind fun _ => ?_
  refine ((hr .statement).statements _).bind fun body => (expect_respans φ _ _).bind fun _ => ?_
  exact node_carries φ _ start body

lemma parameters_carries : Carries φ (parameters readers) (parameters readers) := by
  unfold parameters
  refine (here_respans φ).bind fun start => (expect_respans φ _ _).bind fun _ => ?_
  refine ((listElement_carries hr).list _ _).bind fun l => (expect_respans φ _ _).bind fun _ => ?_
  exact node_carries φ _ start l

lemma functionRest_carries (start : Span) (flags : NodeFlags) (name : Node) :
    Carries φ (functionRest readers start flags name)
      (functionRest readers (φ.span start) flags (name.respan φ)) := by
  unfold functionRest
  refine (parameters_carries hr).bind fun params => ?_
  refine ((block_carries hr).withIn true).bind fun body => ?_
  exact extended_mk φ _ _ start _ [name, params, body]

lemma method_carries (start : Span) (flags : NodeFlags) :
    Carries φ (method readers start flags) (method readers (φ.span start) flags) :=
  functionRest_carries hr start flags (Node.leaf .name [] start)

omit hr in
lemma functionName_carries (isExpression : Bool) :
    Carries φ (functionName isExpression) (functionName isExpression) := by
  unfold functionName
  refine (isAt_ignores φ _).bind fun _ => .ite ?_ (.ite ?_ respans_failHere)
  · exact (advance_respans φ).bind fun t => carries_pure (nameOf t)
  · exact (here_respans φ).bind fun span => carries_pure (Node.leaf .name [] span)

lemma function_carries (isExpression : Bool) (flags : NodeFlags) :
    Carries φ (function readers isExpression flags) (function readers isExpression flags) := by
  unfold function
  refine (advance_respans φ).bind fun keyword => (accept_ignores φ _).bind fun _ => ?_
  refine (functionName_carries isExpression).bind fun name => ?_
  exact functionRest_carries hr keyword.span flags name

omit hr in
lemma closesBeforeArrow_respan (depth : Nat) (l : List Token) :
    closesBeforeArrow depth (l.map (·.respan φ)) = closesBeforeArrow depth l := by
  have next (l : List Token) : (l.map (·.respan φ)).head?.any (·.kind == .arrow) =
      l.head?.any (·.kind == .arrow) := by
    cases l <;> rfl
  induction l generalizing depth with
  | nil => rfl
  | cons t l ih =>
    rw [List.map_cons, closesBeforeArrow, closesBeforeArrow]
    rw [show (t.respan φ).kind = t.kind from rfl]
    split <;> simp only [ih, next]

omit hr in
lemma startsArrow_respan (l : List Token) :
    startsArrow (l.map (·.respan φ)) = startsArrow l := by
  cases l with
  | nil => rfl
  | cons t l =>
    have closes := @closesBeforeArrow_respan φ 0 (t :: l)
    rw [List.map_cons] at closes ⊢
    rw [startsArrow, startsArrow, closes]
    cases l <;> rfl

omit hr in
lemma isArrow_ignores : Ignores φ (look isArrow) :=
  ignores_look fun s => startsArrow_respan (s.current :: s.ahead)

omit hr in
lemma isAsyncArrow_ignores : Ignores φ (look isAsyncArrow) := by
  refine ignores_look fun s => ?_
  unfold isAsyncArrow
  rw [nextToken_respan]
  change (_ && _ && startsArrow (s.ahead.map (·.respan φ))) = _
  rw [startsArrow_respan]
  rfl

omit hr in
lemma isAsyncFunction_ignores : Ignores φ (look isAsyncFunction) := by
  refine ignores_look fun s => ?_
  unfold isAsyncFunction
  rw [nextToken_respan]
  rfl

lemma arrowParameters_carries :
    Carries φ (arrowParameters readers) (arrowParameters readers) := by
  unfold arrowParameters
  refine (isAt_ignores φ _).bind fun _ => .ite ?_ (parameters_carries hr)
  exact (advance_respans φ).bind fun t => carries_pure (Node.of .paramList t.span [nameOf t])

lemma arrowBody_carries : Carries φ (arrowBody readers) (arrowBody readers) := by
  unfold arrowBody
  exact (isAt_ignores φ _).bind fun _ => .ite ((block_carries hr).withIn true) (hr .assignment)

lemma arrowFunction_carries (isAsync : Bool) :
    Carries φ (arrowFunction readers isAsync) (arrowFunction readers isAsync) := by
  unfold arrowFunction
  refine (here_respans φ).bind fun start => (arrowParameters_carries hr).bind fun params => ?_
  refine (expect_respans φ _ _).bind fun _ => (arrowBody_carries hr).bind fun body => ?_
  exact extended_mk φ _ _ start _ [Node.leaf .name [] start, params, body]

/-! ### Accesses -/

lemma spread_carries : Carries φ (spread readers) (spread readers) := by
  unfold spread
  refine (advance_respans φ).bind fun dots => (hr .assignment).bind fun value => ?_
  exact node_carries φ _ dots.span [value]

lemma spreadable_carries : Carries φ (spreadable readers) (spreadable readers) := by
  unfold spreadable
  exact (isAt_ignores φ _).bind fun _ => .ite (spread_carries hr) (hr .assignment)

lemma arguments_respans :
    Respans φ (List.map (·.respan φ)) (arguments readers) (arguments readers) := by
  unfold arguments
  refine (advance_respans φ).bind fun _ => ?_
  refine (((spreadable_carries hr).list _ _).withIn true).bind fun l => ?_
  exact (expect_respans φ _ _).bind fun _ => respans_pure rfl

omit hr in
lemma property_carries (object : Node) :
    Carries φ (property object) (property (object.respan φ)) := by
  unfold property
  refine (current_respans φ).bind fun t => .ite ?_ respans_failHere
  rw [Node.span_respan]
  exact (advance_respans φ).bind fun t => extended_mk φ _ t.value object.span _ [object]

lemma index_carries (object : Node) :
    Carries φ (index readers object) (index readers (object.respan φ)) := by
  unfold index
  refine ((hr .expression).withIn true).bind fun i => (expect_respans φ _ _).bind fun _ => ?_
  rw [Node.span_respan]
  exact node_carries φ _ object.span [object, i]

lemma access_respans (allowCall : Bool) (operand : Node) :
    Respans φ (Option.map (·.respan φ)) (access readers allowCall operand)
      (access readers allowCall (operand.respan φ)) := by
  unfold access
  refine (accept_ignores φ _).bind fun _ => .ite ?_ ((accept_ignores φ _).bind fun _ => ?_)
  · exact (property_carries operand).bind fun n => respans_pure rfl
  refine .ite ((index_carries hr operand).bind fun n => respans_pure rfl) ?_
  refine (isAt_ignores φ _).bind fun _ => .ite ?_ (respans_pure rfl)
  rw [Node.span_respan]
  refine (arguments_respans hr).bind fun args => ?_
  exact (node_carries φ _ operand.span (operand :: args)).bind fun n => respans_pure rfl

lemma accesses_carries (allowCall : Bool) (operand : Node) :
    Carries φ (accesses readers allowCall operand)
      (accesses readers allowCall (operand.respan φ)) :=
  .growing (access_respans hr allowCall) operand

/-! ### Literals -/

lemma arrayLiteral_carries : Carries φ (arrayLiteral readers) (arrayLiteral readers) := by
  unfold arrayLiteral
  refine (advance_respans φ).bind fun bracket => ?_
  refine ((spreadable_carries hr).list _ _).allowingIn.bind fun l => ?_
  exact (expect_respans φ _ _).bind fun _ => node_carries φ _ bracket.span l

omit hr in
lemma modifiers_ignores (flags : NodeFlags) {applies : Token → Bool}
    (h : ∀ t, applies (t.respan φ) = applies t) : Ignores φ (modifiers flags applies) := by
  unfold modifiers
  refine (acceptWord_ignores φ _ fun t => ?_).bind fun isAsync => ?_
  · rw [h]
    rfl
  refine (acceptWord_ignores φ _ h).bind fun isGetter => ?_
  refine (acceptWord_ignores φ _ fun t => ?_).bind fun isSetter => ignores_pure _
  rw [h]

lemma computedProperty_carries (start : Span) (flags : NodeFlags) :
    Carries φ (computedProperty readers start flags)
      (computedProperty readers (φ.span start) flags) := by
  unfold computedProperty
  refine (computedKey_carries hr).bind fun key => (isAt_ignores φ _).bind fun _ => .ite ?_ ?_
  · refine (method_carries hr start flags).bind fun value => ?_
    exact extended_mk φ _ _ start _ [key, value]
  · refine (expect_respans φ _ _).bind fun _ => (hr .assignment).bind fun value => ?_
    exact extended_mk φ _ _ start _ [key, value]

lemma memberFunction_carries (start : Span) (flags : NodeFlags) (key : Token) :
    Carries φ (memberFunction readers start flags key)
      (memberFunction readers (φ.span start) flags (key.respan φ)) := by
  unfold memberFunction
  refine (method_carries hr start flags).bind fun value => ?_
  exact extended_mk φ _ key.value start _ [value]

lemma keyedValue_respans (start : Span) (key : Token) :
    Respans φ (List.map (·.respan φ)) (keyedValue readers start key)
      (keyedValue readers (φ.span start) (key.respan φ)) := by
  unfold keyedValue
  refine (accept_ignores φ _).bind fun _ => .ite ?_ (.ite respans_fail ?_)
  · exact (hr .assignment).bind fun value => respans_pure rfl
  refine (accept_ignores φ _).bind fun _ => .ite ?_ (respans_pure rfl)
  refine (hr .assignment).bind fun fallback => ?_
  exact (node_carries φ _ start [nameOf key, fallback]).bind fun n => respans_pure rfl

lemma keyedProperty_carries : Carries φ (keyedProperty readers) (keyedProperty readers) := by
  unfold keyedProperty
  refine (here_respans φ).bind fun start => ?_
  refine (modifiers_ignores {} fun _ => rfl).bind fun flags => (accept_ignores φ _).bind fun _ => ?_
  refine (accept_ignores φ _).bind fun _ => .ite (computedProperty_carries hr start flags) ?_
  refine propertyKey_respans.bind fun key => (isAt_ignores φ _).bind fun _ => ?_
  refine .ite (memberFunction_carries hr start flags key) ?_
  exact (keyedValue_respans hr start key).bind fun l => extended_mk φ _ key.value start _ l

lemma objectProperty_carries : Carries φ (objectProperty readers) (objectProperty readers) := by
  unfold objectProperty
  exact (isAt_ignores φ _).bind fun _ => .ite (spread_carries hr) (keyedProperty_carries hr)

lemma objectLiteral_carries : Carries φ (objectLiteral readers) (objectLiteral readers) := by
  unfold objectLiteral
  refine (advance_respans φ).bind fun brace => ?_
  refine ((objectProperty_carries hr).list _ _).allowingIn.bind fun l => ?_
  exact (expect_respans φ _ _).bind fun _ => node_carries φ _ brace.span l

/-! ### Classes -/

lemma fieldValue_respans :
    Respans φ (List.map (·.respan φ)) (fieldValue readers) (fieldValue readers) := by
  unfold fieldValue
  refine (accept_ignores φ _).bind fun _ => .ite ?_ (respans_pure rfl)
  exact (hr .assignment).bind fun value => respans_pure rfl

lemma field_carries (start : Span) (flags : NodeFlags) (name : Bytes) :
    Carries φ (field readers start flags name) (field readers (φ.span start) flags name) := by
  unfold field
  refine (fieldValue_respans hr).bind fun l => (semicolon_ignores φ).bind fun _ => ?_
  exact extended_mk φ _ name start _ l

lemma unnamedMember_carries (start : Span) (flags : NodeFlags) :
    Carries φ (unnamedMember readers start flags)
      (unnamedMember readers (φ.span start) flags) := by
  unfold unnamedMember
  refine (isAt_ignores φ _).bind fun _ => .ite (method_carries hr start flags) ?_
  exact field_carries hr start flags []

lemma computedMember_carries (start : Span) (flags : NodeFlags) :
    Carries φ (computedMember readers start flags)
      (computedMember readers (φ.span start) flags) := by
  unfold computedMember
  refine (computedKey_carries hr).bind fun key => ?_
  refine (unnamedMember_carries hr start flags).bind fun value => ?_
  exact extended_mk φ _ _ start _ [key, value]

lemma namedMember_carries (start : Span) (flags : NodeFlags) :
    Carries φ (namedMember readers start flags) (namedMember readers (φ.span start) flags) := by
  unfold namedMember
  refine propertyKey_respans.bind fun key => (isAt_ignores φ _).bind fun _ => ?_
  exact .ite (memberFunction_carries hr start flags key) (field_carries hr start flags key.value)

lemma classMember_carries : Carries φ (classMember readers) (classMember readers) := by
  unfold classMember
  refine (ignores_look fun s => ?_).bind fun _ => .ite respans_failHere ?_
  · rw [nextToken_respan]
    rfl
  refine (here_respans φ).bind fun start => (acceptWord_ignores φ _ fun _ => rfl).bind fun _ => ?_
  refine (modifiers_ignores _ fun _ => rfl).bind fun flags => (accept_ignores φ _).bind fun _ => ?_
  refine (accept_ignores φ _).bind fun _ => .ite (computedMember_carries hr start flags) ?_
  exact namedMember_carries hr start flags

lemma memberTurn_respans : Respans φ (Turn.respan φ) (memberTurn readers) (memberTurn readers) := by
  unfold memberTurn
  refine (isAtAny_ignores φ _).bind fun _ => .ite (respans_pure rfl) ?_
  refine (accept_ignores φ _).bind fun _ => .ite (respans_pure rfl) ?_
  exact (classMember_carries hr).bind fun n => respans_pure rfl

omit hr in
lemma className_carries (isExpression : Bool) :
    Carries φ (className isExpression) (className isExpression) := by
  unfold className
  refine (isAt_ignores φ _).bind fun _ => .ite ?_ (.ite ?_ respans_failHere)
  · exact (advance_respans φ).bind fun t => carries_pure (nameOf t)
  · exact (here_respans φ).bind fun span => carries_pure (Node.of .empty span [])

lemma heritage_carries : Carries φ (heritage readers) (heritage readers) := by
  unfold heritage
  refine (accept_ignores φ _).bind fun _ => .ite ?_ ?_
  · exact (hr .primary).bind fun base => accesses_carries hr true base
  · exact (here_respans φ).bind fun span => carries_pure (Node.of .empty span [])

lemma classBody_carries : Carries φ (classBody readers) (classBody readers) := by
  unfold classBody
  refine (here_respans φ).bind fun start => (expect_respans φ _ _).bind fun _ => ?_
  refine (memberTurn_respans hr).repeatedly.bind fun members => ?_
  exact (expect_respans φ _ _).bind fun _ => node_carries φ _ start members

lemma classDefinition_carries (isExpression : Bool) :
    Carries φ (classDefinition readers isExpression) (classDefinition readers isExpression) := by
  unfold classDefinition
  refine (advance_respans φ).bind fun keyword => (className_carries _).bind fun name => ?_
  refine (heritage_carries hr).bind fun base => (classBody_carries hr).bind fun members => ?_
  exact node_carries φ _ keyword.span [name, base, members]

/-! ### Operands -/

lemma parenthesized_carries : Carries φ (parenthesized readers) (parenthesized readers) := by
  unfold parenthesized
  refine (advance_respans φ).bind fun _ => ((hr .expression).withIn true).bind fun inner => ?_
  exact (expect_respans φ _ _).bind fun _ => carries_pure inner

omit hr in
lemma literal_carries (kind : NodeKind) (keepsValue : Bool) :
    Carries φ (literal kind keepsValue) (literal kind keepsValue) := by
  unfold literal
  exact (advance_respans φ).bind fun t => respans_pure (Node.respan_leaf φ kind _ t.span).symm

lemma asyncFunction_carries (isExpression : Bool) :
    Carries φ (asyncFunction readers isExpression) (asyncFunction readers isExpression) := by
  unfold asyncFunction
  exact (advance_respans φ).bind fun _ => function_carries hr _ _

lemma primary_carries : Carries φ (primary readers) (primary readers) := by
  unfold primary
  refine isAsyncFunction_ignores.bind fun _ => .ite (asyncFunction_carries hr true) ?_
  refine (current_respans φ).bind fun t => ?_
  rw [show (t.respan φ).kind = t.kind from rfl]
  split
  · exact literal_carries _ _
  · split
    · exact parenthesized_carries hr
    · exact arrayLiteral_carries hr
    · exact objectLiteral_carries hr
    · exact function_carries hr true {}
    · exact classDefinition_carries hr true
    · exact respans_failHere

lemma created_carries : Carries φ (created readers) (created readers) := by
  unfold created
  exact (isAt_ignores φ _).bind fun _ => .ite (hr .newExpression) (primary_carries hr)

lemma createdArguments_respans :
    Respans φ (List.map (·.respan φ)) (createdArguments readers) (createdArguments readers) := by
  unfold createdArguments
  exact (isAt_ignores φ _).bind fun _ => .ite (arguments_respans hr) (respans_pure rfl)

lemma newExpression_carries : Carries φ (newExpression readers) (newExpression readers) := by
  unfold newExpression
  refine (advance_respans φ).bind fun keyword => (created_carries hr).bind fun callee => ?_
  refine (accesses_carries hr false callee).bind fun callee => ?_
  refine (createdArguments_respans hr).bind fun args => ?_
  exact node_carries φ _ keyword.span (callee :: args)

omit hr in
lemma isReference_respan (n : Node) : isReference (n.respan φ) = isReference n := by
  unfold isReference
  rw [Node.kind_respan]

omit hr in
lemma isAssignable_respan (n : Node) : isAssignable (n.respan φ) = isAssignable n := by
  unfold isAssignable
  rw [isReference_respan, Node.kind_respan]

omit hr in
lemma afterOperand_carries (start : Span) (operand : Node) :
    Carries φ (afterOperand start operand)
      (afterOperand (φ.span start) (operand.respan φ)) := by
  unfold afterOperand
  rw [isReference_respan, Node.span_respan]
  refine (current_respans φ).bind fun t => .ite (.ite ?_ respans_fail) (carries_pure operand)
  exact (advance_respans φ).bind fun t => extended_mk φ _ t.lexeme start _ [operand]

lemma operandBase_carries : Carries φ (operandBase readers) (operandBase readers) := by
  unfold operandBase
  exact (isAt_ignores φ _).bind fun _ => .ite (newExpression_carries hr) (primary_carries hr)

lemma operand_carries : Carries φ (operand readers) (operand readers) := by
  unfold operand
  refine (here_respans φ).bind fun start => (operandBase_carries hr).bind fun base => ?_
  exact (accesses_carries hr true base).bind fun n => afterOperand_carries start n

/-! ### Operators -/

lemma unary_carries : Carries φ (unary readers) (unary readers) := by
  unfold unary
  refine (current_respans φ).bind fun t => .ite ?_ (.ite ?_ (operand_carries hr))
  · refine (advance_respans φ).bind fun operator => (hr .unary).bind fun argument => ?_
    exact extended_mk φ _ operator.lexeme operator.span _ [argument]
  · refine (advance_respans φ).bind fun operator => (hr .unary).bind fun argument => ?_
    rw [isReference_respan, Node.span_respan]
    exact .ite (extended_mk φ _ operator.lexeme operator.span _ [argument]) respans_fail

lemma binaryTurn_respans (start : Span) (floor : Nat) (left : Node) :
    Respans φ (Option.map (·.respan φ)) (binaryTurn readers start floor left)
      (binaryTurn readers (φ.span start) floor (left.respan φ)) := by
  unfold binaryTurn
  refine (ignores_look fun _ => rfl).bind fun tightness => .ite (respans_pure rfl) ?_
  refine (advance_respans φ).bind fun operator => (hr _).bind fun right => ?_
  exact (extended_mk φ _ operator.lexeme start _ [left, right]).bind fun n => respans_pure rfl

lemma binary_carries (floor : Nat) : Carries φ (binary readers floor) (binary readers floor) := by
  unfold binary
  refine (here_respans φ).bind fun start => (unary_carries hr).bind fun left => ?_
  exact .growing (binaryTurn_respans hr start floor) left

lemma conditional_carries : Carries φ (conditional readers) (conditional readers) := by
  unfold conditional
  refine (here_respans φ).bind fun start => (binary_carries hr 0).bind fun condition => ?_
  refine (accept_ignores φ _).bind fun _ => .ite ?_ (carries_pure condition)
  refine ((hr .assignment).withIn true).bind fun whenTrue => (expect_respans φ _ _).bind fun _ => ?_
  refine (hr .assignment).bind fun whenFalse => ?_
  exact node_carries φ _ start [condition, whenTrue, whenFalse]

lemma assignmentRest_carries (start : Span) (target : Node) :
    Carries φ (assignmentRest readers start target)
      (assignmentRest readers (φ.span start) (target.respan φ)) := by
  unfold assignmentRest
  rw [isAssignable_respan, isReference_respan, Node.span_respan]
  refine (advance_respans φ).bind fun operator => .ite ?_ respans_fail
  refine (hr .assignment).bind fun value => .ite (node_carries φ _ start [target, value]) ?_
  exact extended_mk φ _ operator.lexeme start _ [target, value]

lemma assignment_carries : Carries φ (assignment readers) (assignment readers) := by
  unfold assignment
  refine isArrow_ignores.bind fun _ => .ite (arrowFunction_carries hr false) ?_
  refine isAsyncArrow_ignores.bind fun _ => .ite ?_ ?_
  · exact (advance_respans φ).bind fun _ => arrowFunction_carries hr true
  · refine (here_respans φ).bind fun start => (conditional_carries hr).bind fun target => ?_
    refine (ignores_look fun _ => rfl).bind fun _ => .ite ?_ (carries_pure target)
    exact assignmentRest_carries hr start target

lemma commaTurn_respans (start : Span) (left : Node) :
    Respans φ (Option.map (·.respan φ)) (commaTurn readers start left)
      (commaTurn readers (φ.span start) (left.respan φ)) := by
  unfold commaTurn
  refine (accept_ignores φ _).bind fun _ => .ite ?_ (respans_pure rfl)
  refine (assignment_carries hr).bind fun right => ?_
  exact (node_carries φ _ start [left, right]).bind fun n => respans_pure rfl

lemma expression_carries : Carries φ (expression readers) (expression readers) := by
  unfold expression
  refine (here_respans φ).bind fun start => (assignment_carries hr).bind fun first => ?_
  exact .growing (commaTurn_respans hr start) first

end ModuleLint.Grammar
