import ModuleLint.Proofs.Grammar.Narrowing

/-!
Expressions and patterns where `in` is no operator.

Of an operand no operators are seen from outside, but for those in its parameters, patterns and
members of classes; of an assignment those outside all brackets are.
-/

namespace ModuleLint.Grammar

open Reader

/-- A reader of one node, from any state on. -/
abbrev Part (r : Reach) (p : Reader Node) : Prop := Narrows anywhere r oneNode [] [] p

/-- How far operators are seen from outside the nonterminals inside a declaration. -/
structure NarrowAll (readers : Readers) : Prop where
  primary : Part .sealed (readers .primary)
  newExpression : Part .sealed (readers .newExpression)
  unary : Part .sealed (readers .unary)
  binary : ∀ floor, Part .level (readers (.binary floor))
  assignment : Part .level (readers .assignment)
  bindingTarget : Part .sealed (readers .bindingTarget)
  bindingElement : Part .deep (readers .bindingElement)

variable {readers : Readers}

/-! ### Readers that see nothing -/

instance : Blind propertyKey := by
  unfold propertyKey
  infer_instance

instance (start : Span) : Blind (objectRest start) := by
  unfold objectRest
  infer_instance

instance (isExpression : Bool) : Blind (functionName isExpression) := by
  unfold functionName
  infer_instance

instance (isExpression : Bool) : Blind (className isExpression) := by
  unfold className
  infer_instance

instance (flags : NodeFlags) (applies : Token → Bool) : Blind (modifiers flags applies) := by
  unfold modifiers
  infer_instance

instance (kind : NodeKind) (keepsValue : Bool) : Blind (literal kind keepsValue) := by
  unfold literal
  infer_instance

instance : Blind (parenthesized readers) := by
  unfold parenthesized
  infer_instance

instance : Blind (arrayLiteral readers) := by
  unfold arrayLiteral
  infer_instance

instance : Blind (objectLiteral readers) := by
  unfold objectLiteral
  infer_instance

instance : Blind (arguments readers) := by
  unfold arguments
  infer_instance

instance : Blind (createdArguments readers) := by
  unfold createdArguments
  infer_instance

/-! ### Levels -/

lemma level_narrow_le (kind : TokenKind) : level false kind ≤ level true kind := by
  cases kind <;> decide

lemma level_narrow (kind : TokenKind) (h : kind ≠ .kwIn) : level false kind = level true kind := by
  cases kind <;> first | rfl | exact absurd rfl h

/-- The operator and its right operand, at whose operator the reader stands. -/
def joined (readers : Readers) (start : Span) (tightness : Nat) (left : Node) :
    Reader (Option Node) := do
  let operator ← advance
  let right ← readers (.binary (if operator.kind = .starStar then tightness - 1 else tightness))
  return some (← extended ⟨.binary, operator.lexeme, start, {}, [left, right]⟩)

section Readers

variable [∀ nt, Regular (readers nt)] (hr : NarrowAll readers)
include hr

/-! ### Patterns -/

lemma computedKey_narrows : Part .deep (computedKey readers) := by
  unfold computedKey
  refine hr.assignment.deepen.bind fun key => .skip nofun fun _ => narrows_pure ?_ ?_
  · exact List.Subset.refl _
  · exact List.Subset.refl _

lemma computedEntry_narrows (start : Span) : Part .deep (computedEntry readers start) := by
  unfold computedEntry
  refine (computedKey_narrows hr).bind fun key => .skip nofun fun _ => ?_
  refine hr.bindingElement.bind fun element => narrows_node ?_ fun _ => ⟨rfl, ?_⟩
  · exact List.Subset.refl _
  · exact List.Subset.refl _

lemma entryValue_narrows (start : Span) (key : Token) :
    Part .deep (entryValue readers start key) := by
  unfold entryValue
  refine .skip nofun fun _ => .either hr.bindingElement (.either narrows_fail ?_)
  refine .skip nofun fun _ => .either ?_ (narrows_pure (List.nil_subset _) (List.nil_subset _))
  exact hr.assignment.deepen.bind fun fallback =>
    narrows_node (by simp) fun _ => ⟨rfl, by simp⟩

lemma objectEntry_narrows : Part .deep (objectEntry readers) := by
  unfold objectEntry
  refine .skipLook (fun _ => rfl) fun start => .skip nofun fun _ => .either ?_ ?_
  · exact narrows_of_blind.unseal nofun
  · refine .skip nofun fun _ => .either (computedEntry_narrows hr start) ?_
    refine .skip nofun fun key => (entryValue_narrows hr start key).bind fun value => ?_
    exact narrows_extended (List.Subset.refl _) fun _ => ⟨rfl, List.Subset.refl _⟩

lemma objectPattern_narrows : Part .sealed (objectPattern readers) := by
  unfold objectPattern
  exact .skip nofun fun brace => (objectEntry_narrows hr).list.enclosed rfl

lemma restElement_narrows : Part .sealed (restElement readers) := by
  unfold restElement
  exact .skip nofun fun dots => hr.bindingTarget.bind fun target =>
    narrows_sealed (List.Subset.refl _)

lemma listElement_narrows : Part .deep (listElement readers) := by
  unfold listElement
  exact .skip nofun fun _ => .either ((restElement_narrows hr).unseal nofun) hr.bindingElement

lemma arrayPattern_narrows : Part .sealed (arrayPattern readers) := by
  unfold arrayPattern
  exact .skip nofun fun bracket => (listElement_narrows hr).list.enclosed rfl

lemma pattern_narrows : Part .sealed (pattern readers) := by
  unfold pattern
  exact .skip nofun fun _ => .either (objectPattern_narrows hr) (arrayPattern_narrows hr)

lemma bindingTarget_narrows : Part .sealed (bindingTarget readers) := by
  unfold bindingTarget
  exact .skip nofun fun _ => .either (pattern_narrows hr) narrows_of_blind

lemma bindingElement_narrows : Part .deep (bindingElement readers) := by
  unfold bindingElement
  refine .skipLook (fun _ => rfl) fun start => ?_
  refine (bindingTarget_narrows hr).bindSealed nofun fun target => .skip nofun fun _ => ?_
  refine .either (hr.assignment.deepen.bind fun fallback => narrows_node ?_ fun _ => ⟨rfl, ?_⟩) ?_
  · exact List.Subset.refl _
  · simp
  · exact narrows_pure (List.Subset.refl _) (List.nil_subset _)

/-! ### Functions -/

lemma parameters_narrows : Part .sealed (parameters readers) := by
  unfold parameters
  exact .skipLook (fun _ => rfl) fun start => .skip nofun fun _ =>
    (listElement_narrows hr).list.enclosed rfl

lemma functionRest_narrows (start : Span) (flags : NodeFlags) (name : Node) :
    Part .sealed (functionRest readers start flags name) := by
  unfold functionRest
  refine (parameters_narrows hr).bind fun params => .skip nofun fun body => ?_
  exact narrows_extended (by simp) (absurd rfl)

lemma method_narrows (start : Span) (flags : NodeFlags) :
    Part .sealed (method readers start flags) := functionRest_narrows hr start flags _

lemma function_narrows (isExpression : Bool) (flags : NodeFlags) :
    Part .sealed (function readers isExpression flags) := by
  unfold function
  exact .skip nofun fun keyword => .skip nofun fun _ => .skip nofun fun name =>
    functionRest_narrows hr _ _ _

lemma memberFunction_narrows (start : Span) (flags : NodeFlags) (key : Token) :
    Part .sealed (memberFunction readers start flags key) := by
  unfold memberFunction
  exact (method_narrows hr start flags).bind fun value =>
    narrows_extended (List.Subset.refl _) (absurd rfl)

/-! ### Accesses -/

omit hr in
lemma property_narrows (object : Node) :
    Narrows anywhere .sealed oneNode [object] [object] (property object) := by
  unfold property
  refine .skipLook (fun _ => rfl) fun _ => .either (.skip nofun fun _ => ?_) narrows_failHere
  exact narrows_extended (List.Subset.refl _) (absurd rfl)

omit hr in
lemma index_narrows (object : Node) :
    Narrows anywhere .sealed oneNode [object] [object] (index readers object) := by
  unfold index
  exact .skip nofun fun _ => .skip nofun fun _ => narrows_sealed (by simp)

omit hr in
lemma access_narrows (allowCall : Bool) (operand : Node) :
    Narrows anywhere .sealed (fun m => [m.getD operand]) [operand] [operand]
      (access readers allowCall operand) := by
  have some (n : Node) : Narrows anywhere .sealed (fun m : Option Node => [m.getD operand]) [n] [n]
      (pure (some n)) := narrows_pure (List.Subset.refl _) (List.Subset.refl _)
  unfold access
  refine .skip nofun fun _ => .either ((property_narrows operand).through some) ?_
  refine .skip nofun fun _ => .either ((index_narrows operand).through some) ?_
  refine .skip nofun fun _ => .either (.skip nofun fun args => ?_) ?_
  · exact (narrows_sealed (by simp)).through some
  · exact narrows_pure (List.Subset.refl _) (List.Subset.refl _)

omit hr in
lemma accesses_narrows (allowCall : Bool) (operand : Node) :
    Narrows anywhere .sealed oneNode [operand] [operand] (accesses readers allowCall operand) :=
  .growing (access_narrows allowCall) operand

/-! ### Classes -/

lemma fieldValue_narrows : Narrows anywhere .deep id [] [] (fieldValue readers) := by
  unfold fieldValue
  refine .skip nofun fun _ => .either ?_ (narrows_pure (List.nil_subset _) (List.nil_subset _))
  exact hr.assignment.deepen.bind fun value =>
    narrows_pure (List.Subset.refl _) (List.Subset.refl _)

lemma field_narrows (start : Span) (flags : NodeFlags) (name : Bytes) :
    Part .deep (field readers start flags name) := by
  unfold field
  refine (fieldValue_narrows hr).bind fun value => .skip nofun fun _ => ?_
  exact narrows_extended (List.Subset.refl _) fun _ => ⟨rfl, List.Subset.refl _⟩

lemma unnamedMember_narrows (start : Span) (flags : NodeFlags) :
    Part .deep (unnamedMember readers start flags) := by
  unfold unnamedMember
  exact .skip nofun fun _ => .either ((method_narrows hr start flags).unseal nofun)
    (field_narrows hr start flags [])

lemma computedMember_narrows (start : Span) (flags : NodeFlags) :
    Part .deep (computedMember readers start flags) := by
  unfold computedMember
  refine (computedKey_narrows hr).bind fun key => ?_
  refine (unnamedMember_narrows hr start flags).bind fun value => ?_
  exact narrows_extended (List.Subset.refl _) fun _ => ⟨rfl, List.Subset.refl _⟩

lemma namedMember_narrows (start : Span) (flags : NodeFlags) :
    Part .deep (namedMember readers start flags) := by
  unfold namedMember
  refine .skip nofun fun key => .skip nofun fun _ => .either ?_ (field_narrows hr start flags _)
  exact (memberFunction_narrows hr start flags key).unseal nofun

lemma classMember_narrows : Part .deep (classMember readers) := by
  unfold classMember
  refine .test (fun _ => rfl) narrows_failHere (.skipLook (fun _ => rfl) fun start => ?_)
  refine .skip nofun fun isStatic => .skip nofun fun flags => .skip nofun fun _ => ?_
  refine .skip nofun fun _ => .either ?_ (namedMember_narrows hr start flags)
  exact computedMember_narrows hr start flags

lemma memberTurn_narrows : Narrows anywhere .deep Turn.items [] [] (memberTurn readers) := by
  unfold memberTurn
  refine .skip nofun fun _ => .either ?_ (.skip nofun fun _ => .either ?_ ?_)
  · exact narrows_pure (List.nil_subset _) (List.nil_subset _)
  · exact narrows_pure (List.nil_subset _) (List.nil_subset _)
  · exact (classMember_narrows hr).bind fun member =>
      narrows_pure (List.Subset.refl _) (List.Subset.refl _)

lemma heritage_narrows : Part .sealed (heritage readers) := by
  unfold heritage
  refine .skip nofun fun _ => .either ?_ narrows_of_blind
  exact hr.primary.bind fun base => accesses_narrows true base

lemma classBody_narrows : Part .sealed (classBody readers) := by
  unfold classBody
  exact .skipLook (fun _ => rfl) fun start => .skip nofun fun _ =>
    (memberTurn_narrows hr).repeatedly.enclosed rfl

lemma classDefinition_narrows (isExpression : Bool) :
    Part .sealed (classDefinition readers isExpression) := by
  unfold classDefinition
  refine .skip nofun fun keyword => .skip nofun fun name => ?_
  refine (heritage_narrows hr).bind fun base => ?_
  exact (classBody_narrows hr).bind fun members => narrows_sealed (by simp)

/-! ### Operands -/

lemma asyncFunction_narrows (isExpression : Bool) :
    Part .sealed (asyncFunction readers isExpression) := by
  unfold asyncFunction
  exact .skip nofun fun _ => function_narrows hr isExpression _

lemma primary_narrows : Part .sealed (primary readers) := by
  unfold primary
  refine .test (fun _ => rfl) (asyncFunction_narrows hr true).wherever ?_
  refine .skipLook (fun _ => rfl) fun t => ?_
  split
  · exact narrows_of_blind
  · split
    · exact narrows_of_blind
    · exact narrows_of_blind
    · exact narrows_of_blind
    · exact function_narrows hr true {}
    · exact classDefinition_narrows hr true
    · exact narrows_failHere

lemma created_narrows : Part .sealed (created readers) := by
  unfold created
  exact .skip nofun fun _ => .either hr.newExpression (primary_narrows hr)

lemma newExpression_narrows : Part .sealed (newExpression readers) := by
  unfold newExpression
  refine .skip nofun fun keyword => (created_narrows hr).bind fun callee => ?_
  exact (accesses_narrows false callee).through fun callee =>
    .skip nofun fun args => narrows_sealed (by simp)

omit hr in
omit [∀ nt, Regular (readers nt)] in
lemma afterOperand_narrows (start : Span) (operand : Node) :
    Narrows anywhere .sealed oneNode [operand] [operand] (afterOperand start operand) := by
  unfold afterOperand
  refine .skipLook (fun _ => rfl) fun t => .either (.either ?_ narrows_fail) ?_
  · exact .skip nofun fun _ => narrows_extended (List.Subset.refl _) (absurd rfl)
  · exact narrows_pure (List.Subset.refl _) (List.Subset.refl _)

lemma operandBase_narrows : Part .sealed (operandBase readers) := by
  unfold operandBase
  exact .skip nofun fun _ => .either (newExpression_narrows hr) (primary_narrows hr)

lemma operand_narrows : Part .sealed (operand readers) := by
  unfold operand
  refine .skipLook (fun _ => rfl) fun start => (operandBase_narrows hr).bind fun base => ?_
  exact (accesses_narrows true base).through fun operand => afterOperand_narrows start operand

lemma unary_narrows : Part .sealed (unary readers) := by
  unfold unary
  refine .skipLook (fun _ => rfl) fun t => .either ?_ (.either ?_ (operand_narrows hr))
  · exact .skip nofun fun operator => hr.unary.bind fun argument =>
      narrows_extended (List.Subset.refl _) (absurd rfl)
  · refine .skip nofun fun operator => hr.unary.bind fun argument => .either ?_ narrows_fail
    exact narrows_extended (List.Subset.refl _) (absurd rfl)

/-! ### Operators -/

lemma joined_narrows (start : Span) (tightness : Nat) (left : Node) :
    Narrows (·.current.kind.isOrdinary = true) .level (fun m => [m.getD left]) [left] [left]
      (joined readers start tightness left) := by
  unfold joined
  refine .skip (fun _ => nests_advance fun s => TokenKind.depthAfter_of_isOrdinary) ?_
  intro operator
  refine (hr.binary _).bind fun right => ?_
  have whole : Narrows anywhere .level oneNode ([left] ++ [right]) ([left] ++ [right])
      (extended ⟨.binary, operator.lexeme, start, {}, [left, right]⟩) :=
    narrows_extended (List.Subset.refl _) fun _ => ⟨rfl, List.Subset.refl _⟩
  exact whole.through fun n => narrows_pure (List.Subset.refl _) (List.Subset.refl _)

/-- Where `in` is no operator a turn is another if its operator is one. -/
lemma binaryTurn_narrows (start : Span) (floor : Nat) (left : Node) :
    Narrows anywhere .level (fun m => [m.getD left]) [left] [left]
      (binaryTurn readers start floor left) := by
  intro s a t _ run faults ends allows spells
  have turn (s : ReaderState) : binaryTurn readers start floor left s =
      (if level s.allowsIn s.current.kind ≤ floor then pure none
        else joined readers start (level s.allowsIn s.current.kind) left) s := rfl
  rw [turn, allows] at run
  by_cases stops : level true s.current.kind ≤ floor
  · rw [if_pos stops] at run
    cases run
    refine ⟨fun n hn exposed => ⟨n, hn, exposed⟩, fun _ n hn held => ⟨n, hn, held⟩,
      fun _ => encloses_refl s, .inl ?_⟩
    have still : level s.narrow.allowsIn s.narrow.current.kind ≤ floor :=
      Nat.le_trans (level_narrow_le _) stops
    rw [turn, if_pos still]
    rfl
  · rw [if_neg stops] at run
    have ordinary : s.current.kind.isOrdinary = true :=
      isOrdinary_of_level fun none => stops (none ▸ Nat.zero_le floor)
    obtain ⟨exposes, holds, nested, narrow⟩ :=
      joined_narrows hr start _ left s a t ordinary run faults ends allows spells
    refine ⟨exposes, holds, nested, ?_⟩
    by_cases isIn : s.current.kind = .kwIn
    · obtain ⟨operator, u, taken, rest⟩ := bind_eq_ok run
      cases taken
      have behind := Regular.leads _ a t rest faults
      obtain ⟨right, v, -, last⟩ := bind_eq_ok rest
      obtain ⟨n, w, whole, last⟩ := bind_eq_ok last
      cases whole
      cases last
      refine .inr (.inr ⟨⟨_, List.mem_singleton_self _, ?_⟩, s, encloses_refl s, isIn, ?_⟩)
      · exact Node.holdsIn_of_operator rfl (spells s.current List.mem_cons_self isIn)
      · rw [← tokens_step_of_hasEnd (by rw [isIn]; decide) (ends.suffix behind.suffix)]
        exact behind.suffix
    · have same : level s.narrow.allowsIn s.narrow.current.kind = level true s.current.kind :=
        level_narrow _ isIn
      rw [turn, same, if_neg stops]
      exact narrow

lemma assignmentRest_narrows (start : Span) (target : Node) :
    Narrows (·.current.kind.isAssignmentOperator = true) .level oneNode [target] [target]
      (assignmentRest readers start target) := by
  have nests : Nests (·.current.kind.isAssignmentOperator = true) advance :=
    nests_advance fun s here => TokenKind.depthAfter_of_isOrdinary (isOrdinary_of_assignment here)
  unfold assignmentRest
  refine .skip (fun _ => nests) fun operator => .either ?_ narrows_fail
  refine hr.assignment.bind fun value => .either (narrows_node ?_ ?_) (narrows_extended ?_ ?_)
  · exact List.Subset.refl _
  · exact fun _ => ⟨rfl, List.Subset.refl _⟩
  · exact List.Subset.refl _
  · exact fun _ => ⟨rfl, List.Subset.refl _⟩

lemma arrowParameters_narrows : Part .sealed (arrowParameters readers) := by
  unfold arrowParameters
  exact .skip nofun fun _ => .either narrows_of_blind (parameters_narrows hr)

variable (hs : SurviveAll .keeping readers readers)
include hs

lemma binary_narrows (floor : Nat) : Part .level (binary readers floor) := by
  unfold binary
  refine .skipLook (fun _ => rfl) fun start => ?_
  refine (unary_narrows hr).bindSealed (fun _ => (unary_survives hs).nests) fun left => ?_
  exact (Narrows.growing (binaryTurn_narrows hr start floor) left).mono (List.Subset.refl _)
    (List.nil_subset _)

lemma conditional_narrows : Part .level (conditional readers) := by
  have nests : Nests anywhere (withIn true (readers .assignment)) :=
    (Survives.withIn (hs .assignment 0) true).nests
  unfold conditional
  refine .skipLook (fun _ => rfl) fun start => (binary_narrows hr hs 0).bind fun condition => ?_
  refine .skip (fun _ => nests_accept rfl) fun _ => .either ?_ ?_
  · refine .skip (fun _ => nests) fun whenTrue => .skip (fun _ => nests_expect rfl) fun _ => ?_
    exact hr.assignment.bind fun whenFalse => narrows_node (by simp) fun _ => ⟨rfl, by simp⟩
  · exact narrows_pure (List.Subset.refl _) (List.Subset.refl _)

lemma arrowBody_narrows : Part .level (arrowBody readers) := by
  have nests : Nests anywhere (withIn true (block readers)) :=
    (Survives.withIn (block_survives hs) true).nests
  unfold arrowBody
  exact .skip (fun _ => nests_look) fun _ =>
    .either (narrows_of_blind.unseal fun _ => nests) hr.assignment

lemma arrowFunction_narrows (isAsync : Bool) : Part .level (arrowFunction readers isAsync) := by
  have nests : Nests anywhere (arrowParameters readers) := (arrowParameters_survives hs).nests
  unfold arrowFunction
  refine .skipLook (fun _ => rfl) fun start => ?_
  refine (arrowParameters_narrows hr).bindSealed (fun _ => nests) fun params => ?_
  refine .skip (fun _ => nests_expect rfl) fun _ => (arrowBody_narrows hr hs).bind fun body => ?_
  exact narrows_extended (by simp) fun _ => ⟨rfl, by simp⟩

lemma assignment_narrows : Part .level (assignment readers) := by
  have nests : Nests (isAsyncArrow · = true) advance := by
    refine nests_advance fun s here => ?_
    have word : s.current.kind = .identifier := by
      rw [isAsyncArrow, Bool.and_eq_true, Bool.and_eq_true] at here
      exact kind_of_isWord here.1.1
    rw [word]
    rfl
  unfold assignment
  refine .test (fun _ => rfl) (arrowFunction_narrows hr hs false).wherever ?_
  refine .test (fun _ => rfl) (.skip (fun _ => nests) fun _ => arrowFunction_narrows hr hs true) ?_
  refine .skipLook (fun _ => rfl) fun start => (conditional_narrows hr hs).bind fun target => ?_
  refine .test (fun _ => rfl) (assignmentRest_narrows hr start target) ?_
  exact narrows_pure (List.Subset.refl _) (List.Subset.refl _)

end Readers

/-! ### The recursion -/

lemma read_narrows (depth : Nat) : NarrowAll (read depth) := by
  induction depth with
  | zero => constructor <;> intros <;> exact fun _ _ _ _ run => nomatch run
  | succ depth ih =>
    have hs : SurviveAll .keeping (read depth) (read depth) :=
      read_survives .keeping (Nat.le_refl depth)
    exact ⟨primary_narrows ih, newExpression_narrows ih, unary_narrows ih, binary_narrows ih hs,
      assignment_narrows ih hs, bindingTarget_narrows ih, bindingElement_narrows ih⟩

end ModuleLint.Grammar
