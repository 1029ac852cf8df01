import ModuleLint.Proofs.Grammar.Wording

/-!
The names and properties in patterns, functions, literals, classes and expressions.

Each reader is taken to be given readers that do the same. A name is read where an identifier was
asked for, and a property where a name was.
-/

namespace ModuleLint.Grammar

open Reader Node

/-- Each reader reads trees whose names and properties are tokens with `P`. -/
def WordAll (P : Token → Prop) (readers : Readers) : Prop :=
  ∀ nt, Words P (readers nt) (WordedBy P)

variable {P : Token → Prop} {readers : Readers} {start : Span} {flags : NodeFlags} {key : Token}

/-! ### Patterns -/

lemma propertyKey_words : Words P propertyKey P := by
  unfold propertyKey
  exact .skip fun t => .either words_advance words_failHere

lemma objectRest_words : Words P (objectRest start) (WordedBy P) := by
  unfold objectRest
  refine .bind words_expect fun t ht => words_node rfl ?_
  exact List.forall_mem_singleton.mpr (wordedBy_nameOf ht.1 ht.2)

variable [∀ nt, Regular (readers nt)] (hr : WordAll P readers)
include hr

lemma computedKey_words : Words P (computedKey readers) (WordedBy P) := by
  unfold computedKey
  exact .bind (hr .assignment) fun key hk => .skip fun _ => words_pure hk

lemma computedEntry_words : Words P (computedEntry readers start) (WordedBy P) := by
  unfold computedEntry
  refine .bind (computedKey_words hr) fun key hk => .skip fun _ => ?_
  exact .bind (hr .bindingElement) fun element he => words_node rfl (wordedBy_pair hk he)

/-- Only an identifier may stand for its own value. -/
lemma entryValue_words (hk : P key) : Words P (entryValue readers start key) (WordedBy P) := by
  unfold entryValue
  refine .skip fun _ => .either (hr .bindingElement) (.ite (fun _ => words_fail) fun isName => ?_)
  have name : (nameOf key).WordedBy P := wordedBy_nameOf hk (not_not.mp isName)
  refine .skip fun _ => .either ?_ (words_pure name)
  exact .bind (hr .assignment) fun fallback hf => words_node rfl (wordedBy_pair name hf)

lemma objectEntry_words : Words P (objectEntry readers) (WordedBy P) := by
  unfold objectEntry
  refine .skip fun start => .skip fun _ => .either objectRest_words ?_
  refine .skip fun _ => .either (computedEntry_words hr) (.bind propertyKey_words fun key hk => ?_)
  refine .bind (entryValue_words hr hk) fun value hv => words_extended (wordedBy_mk rfl ?_)
  exact List.forall_mem_singleton.mpr hv

lemma objectPattern_words : Words P (objectPattern readers) (WordedBy P) := by
  unfold objectPattern
  refine .skip fun brace => .bind (.list (objectEntry_words hr)) fun entries he => ?_
  exact .skip fun _ => words_node rfl he

lemma restElement_words : Words P (restElement readers) (WordedBy P) := by
  unfold restElement
  refine .skip fun dots => .bind (hr .bindingTarget) fun target ht => words_node rfl ?_
  exact List.forall_mem_singleton.mpr ht

lemma listElement_words : Words P (listElement readers) (WordedBy P) := by
  unfold listElement
  exact .skip fun _ => .either (restElement_words hr) (hr .bindingElement)

lemma arrayPattern_words : Words P (arrayPattern readers) (WordedBy P) := by
  unfold arrayPattern
  refine .skip fun bracket => .bind (.list (listElement_words hr)) fun elements he => ?_
  exact .skip fun _ => words_node rfl he

lemma pattern_words : Words P (pattern readers) (WordedBy P) := by
  unfold pattern
  exact .skip fun _ => .either (objectPattern_words hr) (arrayPattern_words hr)

lemma bindingTarget_words : Words P (bindingTarget readers) (WordedBy P) := by
  unfold bindingTarget
  refine .skip fun _ => .either (pattern_words hr) (.bind words_expect fun t ht => ?_)
  exact words_pure (wordedBy_nameOf ht.1 ht.2)

lemma bindingElement_words : Words P (bindingElement readers) (WordedBy P) := by
  unfold bindingElement
  refine .skip fun start => .bind (bindingTarget_words hr) fun target ht => .skip fun _ => ?_
  refine .either (.bind (hr .assignment) fun fallback hf => ?_) (words_pure ht)
  exact words_node rfl (wordedBy_pair ht hf)

/-! ### Functions -/

lemma block_words : Words P (block readers) (WordedBy P) := by
  unfold block
  refine .skip fun start => .skip fun _ => .bind (.statements _ (hr .statement)) fun body hb => ?_
  exact .skip fun _ => words_node rfl hb

lemma parameters_words : Words P (parameters readers) (WordedBy P) := by
  unfold parameters
  refine .skip fun start => .skip fun _ => .bind (.list (listElement_words hr)) fun items hi => ?_
  exact .skip fun _ => words_node rfl hi

lemma functionRest_words {name : Node} (hn : name.WordedBy P) :
    Words P (functionRest readers start flags name) (WordedBy P) := by
  unfold functionRest
  refine .bind (parameters_words hr) fun params hp => ?_
  refine .bind (.withIn true (block_words hr)) fun body hb => words_extended (wordedBy_mk rfl ?_)
  exact wordedBy_triple hn hp hb

lemma method_words : Words P (method readers start flags) (WordedBy P) :=
  functionRest_words hr wordedBy_unnamed

omit hr [∀ nt, Regular (readers nt)] in
lemma functionName_words {isExpression : Bool} :
    Words P (functionName isExpression) (WordedBy P) := by
  unfold functionName
  refine .isAt (fun t ht hk => .advance (words_pure (wordedBy_nameOf ht hk))) ?_
  exact .either (.skip fun span => words_pure wordedBy_unnamed) words_failHere

lemma function_words {isExpression : Bool} :
    Words P (function readers isExpression flags) (WordedBy P) := by
  unfold function
  refine .skip fun keyword => .skip fun _ => .bind functionName_words fun name hn => ?_
  exact functionRest_words hr hn

lemma arrowParameters_words : Words P (arrowParameters readers) (WordedBy P) := by
  unfold arrowParameters
  refine .isAt (fun t ht hk => .advance (words_pure (wordedBy_mk rfl ?_))) (parameters_words hr)
  exact List.forall_mem_singleton.mpr (wordedBy_nameOf ht hk)

lemma arrowBody_words : Words P (arrowBody readers) (WordedBy P) := by
  unfold arrowBody
  exact .skip fun _ => .either (.withIn true (block_words hr)) (hr .assignment)

lemma arrowFunction_words {isAsync : Bool} :
    Words P (arrowFunction readers isAsync) (WordedBy P) := by
  unfold arrowFunction
  refine .skip fun start => .bind (arrowParameters_words hr) fun params hp => .skip fun _ => ?_
  refine .bind (arrowBody_words hr) fun body hb => words_extended (wordedBy_mk rfl ?_)
  exact wordedBy_triple wordedBy_unnamed hp hb

/-! ### Accesses -/

lemma spread_words : Words P (spread readers) (WordedBy P) := by
  unfold spread
  refine .skip fun dots => .bind (hr .assignment) fun value hv => words_node rfl ?_
  exact List.forall_mem_singleton.mpr hv

lemma spreadable_words : Words P (spreadable readers) (WordedBy P) := by
  unfold spreadable
  exact .skip fun _ => .either (spread_words hr) (hr .assignment)

lemma arguments_words : Words P (arguments readers) fun l => ∀ n ∈ l, n.WordedBy P := by
  unfold arguments
  refine .skip fun _ => .bind (.withIn true (.list (spreadable_words hr))) fun items hi => ?_
  exact .skip fun _ => words_pure hi

omit hr [∀ nt, Regular (readers nt)] in
/-- A property is read where a name, be it a keyword, follows the dot. -/
lemma property_words {object : Node} (ho : object.WordedBy P) :
    Words P (property object) (WordedBy P) := by
  unfold property
  refine .current fun t ht => ?_
  by_cases isName : t.kind.isName
  · rw [if_pos isName]
    refine .advance (words_extended (.mk nofun (fun _ => ⟨t, ht, isName, rfl⟩) ?_))
    exact List.forall_mem_singleton.mpr ho
  · rw [if_neg isName]
    exact words_failHere.at

lemma index_words {object : Node} (ho : object.WordedBy P) :
    Words P (index readers object) (WordedBy P) := by
  unfold index
  refine .bind (.withIn true (hr .expression)) fun i hi => .skip fun _ => ?_
  exact words_node rfl (wordedBy_pair ho hi)

lemma access_words {allowCall : Bool} {operand : Node} (ho : operand.WordedBy P) :
    Words P (access readers allowCall operand) fun r => ∀ n ∈ r, n.WordedBy P := by
  unfold access
  refine .skip fun _ => .either (.bind (property_words ho) fun n hn => ?_) ?_
  · exact words_pure (wordedBy_some hn)
  refine .skip fun _ => .either (.bind (index_words hr ho) fun n hn => ?_) ?_
  · exact words_pure (wordedBy_some hn)
  refine .skip fun _ => .either (.bind (arguments_words hr) fun args ha => ?_) (words_pure nofun)
  refine .bind (words_node rfl ?_) fun n hn => words_pure (wordedBy_some hn)
  exact List.forall_mem_cons.mpr ⟨ho, ha⟩

lemma accesses_words {allowCall : Bool} {operand : Node} (ho : operand.WordedBy P) :
    Words P (accesses readers allowCall operand) (WordedBy P) :=
  .growing ho fun _ hm => access_words hr hm

/-! ### Literals -/

lemma arrayLiteral_words : Words P (arrayLiteral readers) (WordedBy P) := by
  unfold arrayLiteral
  refine .skip fun bracket => .bind (.allowingIn (.list (spreadable_words hr))) fun l hl => ?_
  exact .skip fun _ => words_node rfl hl

lemma computedProperty_words : Words P (computedProperty readers start flags) (WordedBy P) := by
  unfold computedProperty
  refine .bind (computedKey_words hr) fun key hk => .skip fun _ => .either ?_ (.skip fun _ => ?_)
  · refine .bind (method_words hr) fun value hv => words_extended (wordedBy_mk rfl ?_)
    exact wordedBy_pair hk hv
  · refine .bind (hr .assignment) fun value hv => words_extended (wordedBy_mk rfl ?_)
    exact wordedBy_pair hk hv

lemma memberFunction_words : Words P (memberFunction readers start flags key) (WordedBy P) := by
  unfold memberFunction
  refine .bind (method_words hr) fun value hv => words_extended (wordedBy_mk rfl ?_)
  exact List.forall_mem_singleton.mpr hv

lemma keyedValue_words (hk : P key) :
    Words P (keyedValue readers start key) fun l => ∀ n ∈ l, n.WordedBy P := by
  unfold keyedValue
  refine .skip fun _ => .either (.bind (hr .assignment) fun value hv => ?_) ?_
  · exact words_pure (List.forall_mem_singleton.mpr hv)
  refine .ite (fun _ => words_fail) fun isName => ?_
  have name : (nameOf key).WordedBy P := wordedBy_nameOf hk (not_not.mp isName)
  refine .skip fun _ => .either ?_ (words_pure (List.forall_mem_nil _))
  refine .bind (hr .assignment) fun fallback hf => ?_
  refine .bind (words_node rfl (wordedBy_pair name hf)) fun n hn => ?_
  exact words_pure (List.forall_mem_singleton.mpr hn)

lemma keyedProperty_words : Words P (keyedProperty readers) (WordedBy P) := by
  unfold keyedProperty
  refine .skip fun start => .skip fun flags => .skip fun isGenerator => .skip fun _ => ?_
  refine .either (computedProperty_words hr) (.bind propertyKey_words fun key hk => ?_)
  refine .skip fun _ => .either (memberFunction_words hr) ?_
  exact .bind (keyedValue_words hr hk) fun value hv => words_extended (wordedBy_mk rfl hv)

lemma objectProperty_words : Words P (objectProperty readers) (WordedBy P) := by
  unfold objectProperty
  exact .skip fun _ => .either (spread_words hr) (keyedProperty_words hr)

lemma objectLiteral_words : Words P (objectLiteral readers) (WordedBy P) := by
  unfold objectLiteral
  refine .skip fun brace => .bind (.allowingIn (.list (objectProperty_words hr))) fun l hl => ?_
  exact .skip fun _ => words_node rfl hl

/-! ### Classes -/

lemma fieldValue_words : Words P (fieldValue readers) fun l => ∀ n ∈ l, n.WordedBy P := by
  unfold fieldValue
  refine .skip fun _ => .either (.bind (hr .assignment) fun value hv => ?_) ?_
  · exact words_pure (List.forall_mem_singleton.mpr hv)
  · exact words_pure (List.forall_mem_nil _)

lemma field_words {name : Bytes} : Words P (field readers start flags name) (WordedBy P) := by
  unfold field
  refine .bind (fieldValue_words hr) fun value hv => .skip fun _ => ?_
  exact words_extended (wordedBy_mk rfl hv)

lemma unnamedMember_words : Words P (unnamedMember readers start flags) (WordedBy P) := by
  unfold unnamedMember
  exact .skip fun _ => .either (method_words hr) (field_words hr)

lemma computedMember_words : Words P (computedMember readers start flags) (WordedBy P) := by
  unfold computedMember
  refine .bind (computedKey_words hr) fun key hk => ?_
  refine .bind (unnamedMember_words hr) fun value hv => words_extended (wordedBy_mk rfl ?_)
  exact wordedBy_pair hk hv

lemma namedMember_words : Words P (namedMember readers start flags) (WordedBy P) := by
  unfold namedMember
  exact .skip fun key => .skip fun _ => .either (memberFunction_words hr) (field_words hr)

lemma classMember_words : Words P (classMember readers) (WordedBy P) := by
  unfold classMember
  refine .skipLook fun _ => .either words_failHere (.skip fun start => .skip fun isStatic => ?_)
  refine .skip fun flags => .skip fun _ => .skip fun _ => ?_
  exact .either (computedMember_words hr) (namedMember_words hr)

lemma memberTurn_words :
    Words P (memberTurn readers) fun u => ∀ n ∈ u.items, n.WordedBy P := by
  unfold memberTurn
  refine .skip fun _ => .either (words_pure (List.forall_mem_nil _)) ?_
  refine .skip fun _ => .either (words_pure (List.forall_mem_nil _)) ?_
  refine .bind (classMember_words hr) fun n hn => words_pure ?_
  exact List.forall_mem_singleton.mpr hn

omit hr [∀ nt, Regular (readers nt)] in
lemma className_words {isExpression : Bool} : Words P (className isExpression) (WordedBy P) := by
  unfold className
  refine .isAt (fun t ht hk => .advance (words_pure (wordedBy_nameOf ht hk))) ?_
  exact .either (.skip fun span => words_pure wordedBy_absent) words_failHere

lemma heritage_words : Words P (heritage readers) (WordedBy P) := by
  unfold heritage
  refine .skip fun _ => .either (.bind (hr .primary) fun base hb => accesses_words hr hb) ?_
  exact .skip fun span => words_pure wordedBy_absent

lemma classBody_words : Words P (classBody readers) (WordedBy P) := by
  unfold classBody
  refine .skip fun start => .skip fun _ => .bind (.repeatedly (memberTurn_words hr)) fun l hl => ?_
  exact .skip fun _ => words_node rfl hl

lemma classDefinition_words {isExpression : Bool} :
    Words P (classDefinition readers isExpression) (WordedBy P) := by
  unfold classDefinition
  refine .skip fun keyword => .bind className_words fun name hn => ?_
  refine .bind (heritage_words hr) fun base hb => .bind (classBody_words hr) fun members hm => ?_
  exact words_node rfl (wordedBy_triple hn hb hm)

/-! ### Operands -/

lemma parenthesized_words : Words P (parenthesized readers) (WordedBy P) := by
  unfold parenthesized
  refine .skip fun _ => .bind (.withIn true (hr .expression)) fun inner hi => ?_
  exact .skip fun _ => words_pure hi

omit hr [∀ nt, Regular (readers nt)] in
/-- Of the single tokens that are operands only an identifier is a name. -/
lemma literal_words {t : Token} {kind : NodeKind} {keepsValue : Bool} (ht : P t)
    (h : literalKind? t.kind = some (kind, keepsValue)) :
    WordsAt P t (literal kind keepsValue) (WordedBy P) := by
  unfold literal
  refine .advance (words_pure ?_)
  by_cases isName : t.kind = .identifier
  · rw [isName] at h
    cases h
    exact wordedBy_nameOf ht isName
  · refine wordedBy_leaf ?_
    revert h
    cases hk : t.kind <;> rintro ⟨⟩ <;> first | rfl | exact absurd hk isName

lemma asyncFunction_words {isExpression : Bool} :
    Words P (asyncFunction readers isExpression) (WordedBy P) := by
  unfold asyncFunction
  exact .skip fun _ => function_words hr

lemma primary_words : Words P (primary readers) (WordedBy P) := by
  unfold primary
  refine .skipLook fun _ => .either (asyncFunction_words hr) (.current fun t ht => ?_)
  split
  case h_1 kind keepsValue literal => exact literal_words ht literal
  case h_2 =>
    split
    · exact (parenthesized_words hr).at
    · exact (arrayLiteral_words hr).at
    · exact (objectLiteral_words hr).at
    · exact (function_words hr).at
    · exact (classDefinition_words hr).at
    · exact words_failHere.at

lemma created_words : Words P (created readers) (WordedBy P) := by
  unfold created
  exact .skip fun _ => .either (hr .newExpression) (primary_words hr)

lemma createdArguments_words :
    Words P (createdArguments readers) fun l => ∀ n ∈ l, n.WordedBy P := by
  unfold createdArguments
  exact .skip fun _ => .either (arguments_words hr) (words_pure (List.forall_mem_nil _))

lemma newExpression_words : Words P (newExpression readers) (WordedBy P) := by
  unfold newExpression
  refine .skip fun keyword => .bind (created_words hr) fun base hb => ?_
  refine .bind (accesses_words hr hb) fun callee hc => ?_
  refine .bind (createdArguments_words hr) fun args ha => words_node rfl ?_
  exact List.forall_mem_cons.mpr ⟨hc, ha⟩

omit hr [∀ nt, Regular (readers nt)] in
lemma afterOperand_words {operand : Node} (ho : operand.WordedBy P) :
    Words P (afterOperand start operand) (WordedBy P) := by
  unfold afterOperand
  refine .skip fun t => .either (.either (.skip fun operator => ?_) words_fail) (words_pure ho)
  exact words_extended (wordedBy_mk rfl (List.forall_mem_singleton.mpr ho))

lemma operandBase_words : Words P (operandBase readers) (WordedBy P) := by
  unfold operandBase
  exact .skip fun _ => .either (newExpression_words hr) (primary_words hr)

lemma operand_words : Words P (operand readers) (WordedBy P) := by
  unfold operand
  refine .skip fun start => .bind (operandBase_words hr) fun base hb => ?_
  exact .bind (accesses_words hr hb) fun n hn => afterOperand_words hn

/-! ### Operators -/

lemma unary_words : Words P (unary readers) (WordedBy P) := by
  unfold unary
  refine .skip fun t => .either (.skip fun operator => ?_) (.either (.skip fun operator => ?_) ?_)
  · refine .bind (hr .unary) fun argument ha => words_extended (wordedBy_mk rfl ?_)
    exact List.forall_mem_singleton.mpr ha
  · refine .bind (hr .unary) fun argument ha => .either ?_ words_fail
    exact words_extended (wordedBy_mk rfl (List.forall_mem_singleton.mpr ha))
  · exact operand_words hr

lemma binaryTurn_words {floor : Nat} {left : Node} (hl : left.WordedBy P) :
    Words P (binaryTurn readers start floor left) fun r => ∀ n ∈ r, n.WordedBy P := by
  unfold binaryTurn
  refine .skipLook fun tightness => .either (words_pure nofun) (.skip fun operator => ?_)
  refine .bind (hr _) fun right hright => ?_
  refine .bind (words_extended (wordedBy_mk rfl (wordedBy_pair hl hright))) fun n hn => ?_
  exact words_pure (wordedBy_some hn)

lemma binary_words {floor : Nat} : Words P (binary readers floor) (WordedBy P) := by
  unfold binary
  refine .skip fun start => .bind (unary_words hr) fun left hl => ?_
  exact .growing hl fun _ hm => binaryTurn_words hr hm

lemma conditional_words : Words P (conditional readers) (WordedBy P) := by
  unfold conditional
  refine .skip fun start => .bind (binary_words hr) fun condition hc => .skip fun _ => ?_
  refine .either (.bind (.withIn true (hr .assignment)) fun whenTrue ht => ?_) (words_pure hc)
  refine .skip fun _ => .bind (hr .assignment) fun whenFalse hf => ?_
  exact words_node rfl (wordedBy_triple hc ht hf)

lemma assignmentRest_words {target : Node} (ht : target.WordedBy P) :
    Words P (assignmentRest readers start target) (WordedBy P) := by
  unfold assignmentRest
  refine .skip fun operator => .either (.bind (hr .assignment) fun value hv => ?_) words_fail
  exact .either (words_node rfl (wordedBy_pair ht hv))
    (words_extended (wordedBy_mk rfl (wordedBy_pair ht hv)))

lemma assignment_words : Words P (assignment readers) (WordedBy P) := by
  unfold assignment
  refine .skipLook fun _ => .either (arrowFunction_words hr) (.skipLook fun _ => ?_)
  refine .either (.skip fun _ => arrowFunction_words hr) (.skip fun start => ?_)
  refine .bind (conditional_words hr) fun target ht => .skipLook fun _ => ?_
  exact .either (assignmentRest_words hr ht) (words_pure ht)

lemma commaTurn_words {left : Node} (hl : left.WordedBy P) :
    Words P (commaTurn readers start left) fun r => ∀ n ∈ r, n.WordedBy P := by
  unfold commaTurn
  refine .skip fun _ => .either (.bind (assignment_words hr) fun right h => ?_) (words_pure nofun)
  refine .bind (words_node rfl (wordedBy_pair hl h)) fun n hn => ?_
  exact words_pure (wordedBy_some hn)

lemma expression_words : Words P (expression readers) (WordedBy P) := by
  unfold expression
  refine .skip fun start => .bind (assignment_words hr) fun first hf => ?_
  exact .growing hf fun _ hm => commaTurn_words hr hm

end ModuleLint.Grammar
