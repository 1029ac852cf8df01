import ModuleLint.Grammar.Literal
import ModuleLint.Proofs.Grammar.PatternShape

/-!
The shape of functions, accesses and literals.
-/

namespace ModuleLint.Grammar

open Node Reader

variable {readers : Readers} (hr : YieldShapes readers)
include hr

/-! ### Functions -/

lemma block_yields : Yields (block readers) (As (·.kind = .block)) := by
  unfold block
  refine .skip fun start => .skip fun _ => .bind (.statements _ (hr .statement)) fun body hb => ?_
  refine .skip fun _ => yields_node fun span => ⟨rfl, .mk (fun n hn => (hb n hn).1) ?_⟩
  exact fun n hn => (hb n hn).2

lemma parameters_yields : Yields (parameters readers) (As (·.kind = .paramList)) := by
  unfold parameters
  refine .skip fun start => .skip fun _ => ?_
  refine .bind (.list nofun (listElement_yields hr)) fun items hi => ?_
  refine .skip fun _ => yields_node fun span => ⟨rfl, .mk (fun n hn => (hi n hn).1) ?_⟩
  exact fun n hn => (hi n hn).2

omit hr in
/-- A function with its three parts. -/
lemma as_function {span : Span} {flags : NodeFlags} {name parameters body : Node}
    (hn : name.As IsBareName) (hp : parameters.As (·.kind = .paramList))
    (hb : body.As fun n => n.kind = .block ∨ n.IsExpression) :
    (⟨.function, [], span, flags, [name, parameters, body]⟩ : Node).As (·.kind = .function) :=
  ⟨rfl, .mk ⟨hn.1, hp.1, hb.1, trivial⟩ (by simp [hn.2, hp.2, hb.2])⟩

lemma functionRest_yields (start : Span) (flags : NodeFlags) {name : Node}
    (hn : name.As IsBareName) :
    Yields (functionRest readers start flags name) (As (·.kind = .function)) := by
  unfold functionRest
  refine .bind (parameters_yields hr) fun params hp => ?_
  refine .bind (.withIn true (block_yields hr)) fun body hb => yields_extended fun span => ?_
  exact as_function hn hp (hb.mono .inl)

lemma method_yields (start : Span) (flags : NodeFlags) :
    Yields (method readers start flags) (As (·.kind = .function)) :=
  functionRest_yields hr start flags as_bareName

omit hr in
lemma functionName_yields (isExpression : Bool) :
    Yields (functionName isExpression) (As IsBareName) := by
  unfold functionName
  refine .skip fun _ => .either (.skip fun t => yields_pure nameOf_bare) ?_
  exact .either (.skip fun span => yields_pure as_bareName) yields_failHere

lemma function_yields (isExpression : Bool) (flags : NodeFlags) :
    Yields (function readers isExpression flags) (As (·.kind = .function)) := by
  unfold function
  refine .skip fun keyword => .skip fun _ => ?_
  refine .bind (functionName_yields isExpression) fun name hn => ?_
  exact functionRest_yields hr keyword.span flags hn

lemma arrowParameters_yields : Yields (arrowParameters readers) (As (·.kind = .paramList)) := by
  unfold arrowParameters
  refine .skip fun _ => .either (.skip fun t => yields_pure ?_) (parameters_yields hr)
  have ht := (nameOf_bare (t := t)).isTarget.isElement.isParameter
  have fit : ∀ n ∈ [nameOf t], n.IsParameter := by simpa using ht.1
  exact ⟨rfl, .mk fit (by simpa using ht.2)⟩

lemma arrowBody_yields :
    Yields (arrowBody readers) (As fun n => n.kind = .block ∨ n.IsExpression) := by
  unfold arrowBody
  refine .skip fun _ => .either ?_ ((hr .assignment).mono fun n hn => hn.mono .inr)
  exact (Yields.withIn true (block_yields hr)).mono fun n hn => hn.mono .inl

lemma arrowFunction_yields (isAsync : Bool) :
    Yields (arrowFunction readers isAsync) (As IsExpression) := by
  unfold arrowFunction
  refine .skip fun start => .bind (arrowParameters_yields hr) fun params hp => .skip fun _ => ?_
  refine .bind (arrowBody_yields hr) fun body hb => yields_extended fun span => ?_
  exact ⟨⟨rfl, nofun⟩, (as_function as_bareName hp hb).2⟩

/-! ### Accesses -/

lemma spread_yields : Yields (spread readers) (As (·.kind = .spread)) := by
  unfold spread
  refine .skip fun dots => .bind (hr .assignment) fun value hv => yields_node fun span => ?_
  exact ⟨rfl, .mk ⟨hv.1, trivial⟩ (by simp [hv.2])⟩

lemma spreadable_yields : Yields (spreadable readers) (As IsArgument) := by
  unfold spreadable
  refine .skip fun _ => .either ((spread_yields hr).mono fun n hn => hn.mono .inr) ?_
  exact (hr .assignment).mono fun n hn => hn.isArgument

lemma arguments_yields : Yields (arguments readers) fun l => ∀ n ∈ l, n.As IsArgument := by
  unfold arguments
  refine .skip fun _ => .bind (.withIn true (.list nofun (spreadable_yields hr))) fun items hi => ?_
  exact .skip fun _ => yields_pure hi

omit hr in
/-- A call, or an instance made with `new`. -/
lemma as_call {kind : NodeKind} (hk : kind = .call ∨ kind = .new) {span : Span} {callee : Node}
    {args : List Node} (hc : callee.As IsExpression) (ha : ∀ n ∈ args, n.As IsArgument) :
    (Node.of kind span (callee :: args)).As IsExpression := by
  have fit : ChildrenFit kind (callee :: args) := by
    rcases hk with rfl | rfl <;> exact ⟨hc.1, fun n hn => (ha n hn).1⟩
  refine as_expression ?_ ?_ fit ?_
  · rcases hk with rfl | rfl <;> rfl
  · rcases hk with rfl | rfl <;> exact nofun
  · intro n hn
    rcases List.mem_cons.mp hn with rfl | hn
    · exact hc.2
    · exact (ha n hn).2

omit hr in
lemma property_yields {object : Node} (ho : object.As IsExpression) :
    Yields (property object) (As IsExpression) := by
  unfold property
  refine .skip fun t => .either (.skip fun t => yields_extended fun span => ?_) yields_failHere
  exact as_expression rfl nofun ⟨ho.1, trivial⟩ (by simp [ho.2])

lemma index_yields {object : Node} (ho : object.As IsExpression) :
    Yields (index readers object) (As IsExpression) := by
  unfold index
  refine .bind (.withIn true (hr .expression)) fun i hi => .skip fun _ => yields_node fun span => ?_
  exact as_expression rfl nofun ⟨ho.1, hi.1, trivial⟩ (by simp [ho.2, hi.2])

lemma access_yields (allowCall : Bool) {operand : Node} (ho : operand.As IsExpression) :
    Yields (access readers allowCall operand) fun r => ∀ n ∈ r, n.As IsExpression := by
  unfold access
  have some_yields {n : Node} (hn : n.As IsExpression) :
      Yields (pure (some n)) fun r => ∀ n ∈ r, n.As IsExpression := yields_pure (by simpa using hn)
  refine .skip fun _ => .either (.bind (property_yields ho) fun n hn => some_yields hn) ?_
  refine .skip fun _ => .either (.bind (index_yields hr ho) fun n hn => some_yields hn) ?_
  refine .skip fun _ => .either ?_ (yields_pure (by simp))
  refine .bind (arguments_yields hr) fun args ha => ?_
  exact .bind (yields_node fun span => as_call (.inl rfl) ho ha) fun n hn => some_yields hn

lemma accesses_yields (allowCall : Bool) {operand : Node} (ho : operand.As IsExpression) :
    Yields (accesses readers allowCall operand) (As IsExpression) :=
  .growing ho fun _ hn => access_yields hr allowCall hn

/-! ### Literals -/

lemma arrayLiteral_yields : Yields (arrayLiteral readers) (As IsExpression) := by
  unfold arrayLiteral
  have element : Yields (spreadable readers) (As fun n => n.IsArgument ∨ n.kind = .empty) :=
    (spreadable_yields hr).mono fun n hn => hn.mono .inl
  refine .skip fun bracket => .bind (.allowingIn (.list ?_ element)) fun elements he => ?_
  · exact fun _ span => as_empty.mono .inr
  refine .skip fun _ => yields_node fun span => ?_
  exact as_expression rfl nofun (fun n hn => (he n hn).1) fun n hn => (he n hn).2

omit hr in
/-- A computed key with what stands under it. -/
lemma as_computed {span : Span} {flags : NodeFlags} {key value : Node} (hk : key.As IsExpression)
    (hv : value.As fun n => n.IsExpression ∨ n.IsElement ∨ n.kind = .memberField) :
    (⟨.computedProp, [], span, flags, [key, value]⟩ : Node).As (·.kind = .computedProp) :=
  ⟨rfl, .mk ⟨hk.1, hv.1, trivial⟩ (by simp [hk.2, hv.2])⟩

omit hr in
lemma isExpression_of_function {n : Node} (h : n.kind = .function) : n.IsExpression := by
  simp [IsExpression, h, NodeKind.isExpression]

lemma computedProperty_yields (start : Span) (flags : NodeFlags) :
    Yields (computedProperty readers start flags) (As IsProperty) := by
  unfold computedProperty
  refine .bind (computedKey_yields hr) fun key hk => .skip fun _ => .either ?_ ?_
  · refine .bind (method_yields hr start flags) fun value hv => yields_extended fun span => ?_
    refine (as_computed hk (hv.mono fun h => ?_)).mono (.inr ∘ .inr ∘ .inl)
    exact .inl (isExpression_of_function h)
  · refine .skip fun _ => .bind (hr .assignment) fun value hv => yields_extended fun span => ?_
    exact (as_computed hk (hv.mono .inl)).mono (.inr ∘ .inr ∘ .inl)

lemma memberFunction_yields (start : Span) (flags : NodeFlags) (key : Token) :
    Yields (memberFunction readers start flags key) (As (·.kind = .memberFunction)) := by
  unfold memberFunction
  refine .bind (method_yields hr start flags) fun value hv => yields_extended fun span => ?_
  exact ⟨rfl, .mk ⟨hv.1, trivial⟩ (by simp [hv.2])⟩

/-- The children of a key: none, or its value. -/
lemma keyedValue_yields (start : Span) (key : Token) :
    Yields (keyedValue readers start key) fun l =>
      l.length ≤ 1 ∧ ∀ n ∈ l, n.As fun n => n.IsExpression ∨ n.IsElement := by
  unfold keyedValue
  refine .skip fun _ => .either (.bind (hr .assignment) fun value hv => yields_pure ?_) ?_
  · simpa using hv.mono .inl
  refine .either yields_fail (.skip fun _ => .either ?_ (yields_pure (by simp)))
  refine .bind (hr .assignment) fun fallback hf => .bind (defaultedKey_yields start key hf) ?_
  exact fun value hv => yields_pure (by simpa using hv.mono .inr)

omit hr in
lemma as_stringKey {value : Bytes} {span : Span} {l : List Node} (hl : l.length ≤ 1)
    (h : ∀ n ∈ l, n.As fun n => n.IsExpression ∨ n.IsElement) :
    (⟨.stringKey, value, span, {}, l⟩ : Node).As (·.kind = .stringKey) := by
  refine ⟨rfl, .mk ?_ fun n hn => (h n hn).2⟩
  match l, hl with
  | [], _ => exact trivial
  | [n], _ => exact (h n (by simp)).1

lemma keyedProperty_yields : Yields (keyedProperty readers) (As IsProperty) := by
  unfold keyedProperty
  refine .skip fun start => .skip fun flags => .skip fun isGenerator => .skip fun _ => ?_
  refine .either (computedProperty_yields hr start flags) (.skip fun key => .skip fun _ => ?_)
  have method := memberFunction_yields hr start flags key
  refine .either (method.mono fun n hn => hn.mono (.inr ∘ .inl)) ?_
  refine .bind (keyedValue_yields hr start key) fun value hv => yields_extended fun span => ?_
  exact (as_stringKey hv.1 hv.2).mono (.inr ∘ .inr ∘ .inr)

lemma objectProperty_yields : Yields (objectProperty readers) (As IsProperty) := by
  unfold objectProperty
  refine .skip fun _ => .either ?_ (keyedProperty_yields hr)
  exact (spread_yields hr).mono fun n hn => hn.mono .inl

lemma objectLiteral_yields : Yields (objectLiteral readers) (As IsExpression) := by
  unfold objectLiteral
  refine .skip fun brace => .bind (.allowingIn (.list nofun (objectProperty_yields hr))) ?_
  refine fun properties hp => .skip fun _ => yields_node fun span => ?_
  exact as_expression rfl nofun (fun n hn => (hp n hn).1) fun n hn => (hp n hn).2

end ModuleLint.Grammar
