import ModuleLint.Proofs.Grammar.GroupReads

/-!
Operands that are read back.

Literals, arrays, objects, accesses, calls and `new` are read from their printed tokens when their
parts are. A shorthand key may be spelled like a modifier: the token behind it makes it a key.
-/

namespace ModuleLint

open Token Node

namespace Grammar

open Reader

variable {quote : TokenKind → Bytes → Bytes} {depth : Nat} {l m : List Token} {t u : Token}
  {n : Node} {span : Span}

/-! ### Readers of whole expressions -/

section Levels

variable {tokens : List Token}

lemma ends_of_last (stop : t.kind = .rparen ∨ t.kind = .eof) :
    EndsAssignment t.kind ∧ t.kind ≠ .comma := by
  rcases stop with stop | stop <;> rw [stop] <;> decide

/-- What `assignment` reads up to a token that ends it is an expression that is read back. -/
lemma ReadBack.of_assignment (kind : n.kind ∉ partKinds) (print_eq : n.print quote = tokens)
    (h : ∀ {depth t m}, EndsAssignment t.kind → (tokens ++ t :: m).length ≤ depth + 1 →
      Reads (Grammar.assignment (read depth)) (tokens ++ t :: m) n.bare (t :: m)) :
    ReadBack quote n where
  kind := kind
  reads {depth t m} stop deep := by
    rw [print_eq] at deep ⊢
    obtain ⟨ends, noComma⟩ := ends_of_last stop
    exact reads_of_production (fun depth deep =>
      expression_of_assignment (h ends deep) noComma) deep

lemma ReadBack.of_unary (kind : n.kind ∉ partKinds) (print_eq : n.print quote = tokens)
    (h : ∀ {depth t m}, EndsAssignment t.kind → (tokens ++ t :: m).length ≤ depth + 1 →
      Reads (Grammar.unary (read depth)) (tokens ++ t :: m) n.bare (t :: m)) : ReadBack quote n :=
  .of_assignment kind print_eq fun stop deep => assignment_of_unary (h stop deep) stop

/-- An expression that starts like one that is no operator and no `new`. -/
lemma ReadBack.of_primary (kind : n.kind ∉ partKinds) (print_eq : n.print quote = u :: tokens)
    (first : StartsPrimary u.kind)
    (h : ∀ {depth t m}, EndsAssignment t.kind → (tokens ++ t :: m).length ≤ depth →
      Reads (Grammar.primary (read depth)) (u :: (tokens ++ t :: m)) n.bare (t :: m)) :
    ReadBack quote n :=
  .of_unary kind print_eq fun stop deep =>
    unary_of_primary (h stop (Nat.le_of_succ_le_succ deep)) first stop.stops.1

end Levels

/-! ### Literals -/

lemma readBack_literal {kind : NodeKind} {text : Bytes} {keepsValue : Bool}
    (isPart : kind ∉ partKinds) (print_eq : (Node.mk kind text span {} []).print quote = [t])
    (noFile : t.span = .none) (literal : literalKind? t.kind = some (kind, keepsValue))
    (value : (if keepsValue then t.value else []) = text) :
    ReadBack quote ⟨kind, text, span, {}, []⟩ := by
  refine .of_primary isPart print_eq (.inl (by rw [literal]; rfl)) fun {depth u m} stop deep => ?_
  rw [← value]
  exact primary_of_literal noFile literal stop.stops.2.2.2.2

/-! ### Items -/

lemma ends_of_stop {close : TokenKind} (stop : t.kind = .comma ∨ t.kind = close)
    (hc : EndsAssignment close) : EndsAssignment t.kind := by
  rcases stop with stop | stop <;> rw [stop]
  · decide
  · exact hc

lemma ReadBack.readsItem {close : TokenKind} (h : ReadBack quote n) (hc : EndsAssignment close) :
    ReadsItem quote spreadable close n where
  starts := ⟨_, _, h.part_eq, by decide⟩
  reads {depth t m} stop deep := by
    have value := h.reads_assignment (ends_of_stop stop hc) deep
    rw [h.opens] at value ⊢
    unfold spreadable
    exact (isAt_false (by simp)).bind value

lemma readsItem_spread {item other : Readers → Reader Node} {close : TokenKind}
    (hi : ∀ readers, item readers =
      isAt .ellipsis >>= fun found => if found then spread readers else other readers)
    (hc : EndsAssignment close) (h : ReadBack quote n) :
    ReadsItem quote item close ⟨.spread, [], span, {}, [n]⟩ where
  starts := ⟨_, _, print_eq .., by decide⟩
  reads {depth t m} stop deep := by
    have print_eq : (Node.mk .spread [] span {} [n]).part quote =
        sign .ellipsis :: n.part quote := print_eq ..
    rw [print_eq, List.cons_append] at deep ⊢
    have value := h.reads_assignment (ends_of_stop stop hc) (Nat.le_of_succ_le deep)
    rw [hi]
    refine (isAt_true rfl).bind ?_
    change Reads (spread _) _ _ _
    unfold spread
    exact (advance_reads (by simp) (by simp)).bind (value.bind (node_reads _ _ _))

lemma isHole_empty : IsHole quote ⟨.empty, [], span, {}, []⟩ := ⟨print_eq .., bare_mk ..⟩

/-! ### Arrays and objects -/

lemma readBack_array {elements : List Node}
    (h : ∀ n ∈ elements, IsHole quote n ∨ ReadsItem quote spreadable .rbracket n) :
    ReadBack quote ⟨.arrayLit, [], span, {}, elements⟩ := by
  have print_eq : (Node.mk .arrayLit [] span {} elements).print quote =
      sign .lbracket :: (terminated (elements.map (part quote)) ++ [sign .rbracket]) := print_eq ..
  refine .of_primary (by simp [partKinds]) print_eq (.inr (.inr (.inl rfl)))
    fun {depth t m} stop deep => ?_
  rw [List.append_assoc] at deep ⊢
  have items := list_terminated h (by decide) (by decide) (@kind_sign .rbracket) deep
  unfold primary
  refine (isAsyncFunction_reads (.inl (by simp))).bind ((current_reads _ _).bind ?_)
  change Reads (arrayLiteral (read depth)) _ _ _
  unfold arrayLiteral
  refine (advance_reads (by simp) (by simp)).bind (items.allowingIn.bind ?_)
  refine (expect_reads rfl (by decide) (by simp)).bind ?_
  rw [bare_mk]
  exact node_reads _ _ _

lemma readBack_object {properties : List Node}
    (h : ∀ n ∈ properties, ReadsItem quote objectProperty .rbrace n) :
    ReadBack quote ⟨.objectLit, [], span, {}, properties⟩ := by
  have print_eq : (Node.mk .objectLit [] span {} properties).print quote =
      sign .lbrace :: (separated (properties.map (part quote)) ++ [sign .rbrace]) := print_eq ..
  refine .of_primary (by simp [partKinds]) print_eq (.inr (.inr (.inr rfl)))
    fun {depth t m} stop deep => ?_
  rw [List.append_assoc] at deep ⊢
  have items := list_separated h (by decide) (by decide) (@kind_sign .rbrace) deep
  unfold primary
  refine (isAsyncFunction_reads (.inl (by simp))).bind ((current_reads _ _).bind ?_)
  change Reads (objectLiteral (read depth)) _ _ _
  unfold objectLiteral
  refine (advance_reads (by simp) (by simp)).bind (items.allowingIn.bind ?_)
  refine (expect_reads rfl (by decide) (by simp)).bind ?_
  rw [bare_mk]
  exact node_reads _ _ _

/-! ### Properties -/

/-- The kinds of tokens that make the word before them a key. -/
def FollowsKey (k : TokenKind) : Prop := k ∈ [.colon, .comma, .rbrace, .assign]

instance (k : TokenKind) : Decidable (FollowsKey k) := inferInstanceAs (Decidable (k ∈ _))

lemma FollowsKey.modifiesProperty (h : FollowsKey u.kind) : modifiesProperty u = false := by
  have all : ∀ k ∈ ([.colon, .comma, .rbrace, .assign] : List TokenKind),
      (!([TokenKind.colon, .lparen, .comma, .rbrace, .assign].contains k)) = false := by decide
  exact all u.kind h

lemma modifiers_reads
    (h : t.kind ≠ .identifier ∨ ∃ u m, l = u :: m ∧ modifiesProperty u = false) :
    Reads (modifiers {} modifiesProperty) (t :: l) {} (t :: l) := by
  have both (more : Token → Bool) :
      t.kind ≠ .identifier ∨ ∃ u m, l = u :: m ∧ (modifiesProperty u && more u) = false := by
    refine h.imp_right fun ⟨u, m, hl, hu⟩ => ⟨u, m, hl, ?_⟩
    rw [hu, Bool.false_and]
  have setter : t.kind ≠ .identifier ∨ ∃ u m, l = u :: m ∧
      (!false && modifiesProperty u) = false := h
  unfold modifiers
  refine (acceptWord_passes (both _)).bind ((acceptWord_passes h).bind ?_)
  exact (acceptWord_passes setter).bind (reads_pure _ _)

lemma propertyKey_reads (key : t.kind = .identifier ∨ t.kind = .string) (hl : l ≠ []) :
    Reads propertyKey (t :: l) t l := by
  have known : t.kind ≠ .eof := by
    rcases key with key | key <;> rw [key] <;> nofun
  have isKey : t.kind.isName ∨ t.kind = .string ∨ t.kind = .number := by
    rcases key with key | key <;> rw [key] <;> decide
  unfold propertyKey
  refine (current_reads t _).bind ?_
  rw [if_pos isKey]
  exact advance_reads known hl

/-- A property with a key that is a word or a string. -/
lemma keyedProperty_reads {readers : Readers} {children : List Node}
    (key : t.kind = .identifier ∨ t.kind = .string) (next : FollowsKey u.kind)
    (value : Reads (keyedValue readers .none t) (u :: l) children m) :
    Reads (keyedProperty readers) (t :: u :: l) ⟨.stringKey, t.value, .none, {}, children⟩ m := by
  have noMark : t.kind ≠ .star ∧ t.kind ≠ .lbracket := by
    rcases key with key | key <;> rw [key] <;> decide
  have noCall : u.kind ≠ .lparen := by
    intro h
    rw [h] at next
    exact absurd next (by decide)
  unfold keyedProperty
  refine (here_reads _).bind ((modifiers_reads (.inr ⟨u, l, rfl, next.modifiesProperty⟩)).bind ?_)
  refine (accept_passes noMark.1).bind ((accept_passes noMark.2).bind ?_)
  refine (propertyKey_reads key (by simp)).bind ((isAt_false noCall).bind ?_)
  rw [if_neg (by simp)]
  exact value.bind (extended_reads _ _ _ _ _)

/-- A property is read from its key on, which starts with no dots. -/
lemma objectProperty_of_keyed {readers : Readers} (h : Reads (keyedProperty readers) (t :: l) n m)
    (first : t.kind ≠ .ellipsis) : Reads (objectProperty readers) (t :: l) n m := by
  unfold objectProperty
  exact (isAt_false first).bind h

lemma readsItem_valued {key : Bytes} {value : Node} (h : ReadBack quote value) :
    ReadsItem quote objectProperty .rbrace ⟨.stringKey, key, span, {}, [value]⟩ := by
  have noDefault : ¬ optionIs .defaultValue (some value) := by
    intro isDefault
    have kind : value.kind = .defaultValue := by
      simpa [optionIs] using isDefault
    exact h.kind (by simp [kind, partKinds])
  have print_eq : (Node.mk .stringKey key span {} [value]).part quote =
      written quote .string key :: sign .colon :: value.part quote :=
    (print_eq ..).trans (if_neg noDefault)
  refine ⟨⟨_, _, print_eq, by simp [EndsAssignment]⟩, fun {depth t m} stop deep => ?_⟩
  rw [print_eq, List.cons_append, List.cons_append] at deep ⊢
  have reads := h.reads_assignment (ends_of_stop stop (by decide))
    (Nat.le_of_succ_le (Nat.le_of_succ_le deep))
  have keyed : Reads (keyedValue (read depth) .none (written quote .string key))
      (sign .colon :: (value.part quote ++ t :: m)) [value.bare] (t :: m) := by
    unfold keyedValue
    exact (accept_reads rfl (by decide) (by simp)).bind reads.map
  exact objectProperty_of_keyed (keyedProperty_reads (.inr rfl) (by decide) keyed) (by simp)

lemma readsItem_shorthand {key : Bytes} :
    ReadsItem quote objectProperty .rbrace ⟨.stringKey, key, span, {}, []⟩ := by
  have print_eq : (Node.mk .stringKey key span {} []).part quote = [word .identifier key] :=
    print_eq ..
  refine ⟨⟨_, _, print_eq, by simp [EndsAssignment]⟩, fun {depth t m} stop deep => ?_⟩
  have follows : FollowsKey t.kind ∧ t.kind ≠ .colon ∧ t.kind ≠ .assign := by
    rcases stop with stop | stop <;> rw [stop] <;> decide
  have keyed : Reads (keyedValue (read depth) .none (word .identifier key)) (t :: m) []
      (t :: m) := by
    unfold keyedValue
    refine (accept_passes follows.2.1).bind ?_
    change Reads (accept .assign >>= _) _ _ _
    exact (accept_passes follows.2.2).bind (reads_pure _ _)
  rw [print_eq]
  exact objectProperty_of_keyed (keyedProperty_reads (.inl rfl) follows.1 keyed) (by simp)

lemma readsItem_defaulted {key : Bytes} {span' span'' : Span} {value : Node}
    (h : ReadBack quote value) :
    ReadsItem quote objectProperty .rbrace ⟨.stringKey, key, span, {},
      [⟨.defaultValue, [], span', {}, [⟨.name, key, span'', {}, []⟩, value]⟩]⟩ := by
  have print_eq : (Node.mk .stringKey key span {}
      [⟨.defaultValue, [], span', {}, [⟨.name, key, span'', {}, []⟩, value]⟩]).part quote =
      word .identifier key :: sign .assign :: value.part quote := print_eq ..
  refine ⟨⟨_, _, print_eq, by simp [EndsAssignment]⟩, fun {depth t m} stop deep => ?_⟩
  rw [print_eq, List.cons_append, List.cons_append] at deep ⊢
  have reads := h.reads_assignment (ends_of_stop stop (by decide))
    (Nat.le_of_succ_le (Nat.le_of_succ_le deep))
  have keyed : Reads (keyedValue (read depth) .none (word .identifier key))
      (sign .assign :: (value.part quote ++ t :: m))
      [⟨.defaultValue, [], .none, {}, [⟨.name, key, .none, {}, []⟩, value.bare]⟩] (t :: m) := by
    unfold keyedValue
    refine (accept_passes (by simp)).bind ?_
    change Reads (accept .assign >>= _) _ _ _
    refine (accept_reads rfl (by decide) (by simp)).bind (reads.bind ?_)
    exact (node_reads _ _ _).map
  simp only [bare_mk, List.map_cons, List.map_nil]
  exact objectProperty_of_keyed (keyedProperty_reads (.inl rfl) (by decide) keyed) (by simp)

lemma readsItem_computed {key value : Node} (hk : ReadBack quote key) (h : ReadBack quote value) :
    ReadsItem quote objectProperty .rbrace ⟨.computedProp, [], span, {}, [key, value]⟩ := by
  have print_eq : (Node.mk .computedProp [] span {} [key, value]).part quote =
      sign .lbracket :: key.part quote ++ sign .rbracket :: sign .colon :: value.part quote :=
    print_eq ..
  refine ⟨⟨_, _, print_eq, by simp [EndsAssignment]⟩, fun {depth t m} stop deep => ?_⟩
  rw [print_eq, List.append_assoc, List.cons_append, List.cons_append, List.cons_append] at deep ⊢
  have readsKey := hk.reads_assignment (by decide) (Nat.le_of_succ_le deep)
  have reads : Reads (read depth .assignment) (value.part quote ++ t :: m) value.bare (t :: m) := by
    refine h.reads_assignment (ends_of_stop stop (by decide)) ?_
    simp only [List.length_append, List.length_cons] at deep ⊢
    omega
  refine objectProperty_of_keyed ?_ (by simp)
  unfold keyedProperty computedProperty computedKey
  refine (here_reads _).bind ((modifiers_reads (.inl (by simp))).bind ?_)
  refine (accept_passes (by simp)).bind ((accept_reads rfl (by decide) (by simp)).bind ?_)
  refine (readsKey.bind ((expect_reads rfl (by decide) (by simp)).map)).bind ?_
  refine (isAt_false (by simp)).bind ((expect_reads rfl (by decide) (by simp)).bind ?_)
  refine reads.bind ?_
  rw [bare_mk]
  exact extended_reads _ _ _ _ _

/-! ### Accesses -/

/-- An operand with one access, after which there is no other one. -/
lemma ReadBack.operand_access {object result : Node} (h : ReadBack quote object)
    (deep : (object.part quote ++ l).length ≤ depth + 1) (taken : (t :: m).length < l.length)
    (turn : Reads (access (read depth) true object.bare) l (some result) (t :: m))
    (stop : EndsOperand t.kind) :
    Reads (Grammar.unary (read depth)) (object.part quote ++ l) result (t :: m) := by
  have base := h.operandBase (l := l) (by rintro rfl; cases taken) deep
  simp only [EndsOperand, List.mem_cons, List.not_mem_nil, or_false, not_or] at stop
  obtain ⟨dot, bracket, paren, plus, minus⟩ := stop
  have accesses : Reads (accesses (read depth) true object.bare) l result (t :: m) :=
    growing_once turn taken (access_end ⟨dot, bracket⟩ (.inr paren))
  rw [h.opens] at base ⊢
  refine unary_of_operand ?_ (by decide)
  unfold operand
  exact (here_reads _).bind (base.bind (accesses.bind (afterOperand_end ⟨plus, minus⟩)))

lemma isName_keyword? (name : Bytes) : ((TokenKind.keyword? name).getD .identifier).isName := by
  cases h : TokenKind.keyword? name with
  | none => rfl
  | some k =>
    have all : ∀ k ∈ TokenKind.keywords, k.isName := by decide
    exact all k (TokenKind.mem_keywords h)

lemma readBack_getProp {name : Bytes} {object : Node} (h : ReadBack quote object) :
    ReadBack quote ⟨.getProp, name, span, {}, [object]⟩ := by
  let key := word ((TokenKind.keyword? name).getD .identifier) name
  have print_eq : (Node.mk .getProp name span {} [object]).print quote =
      object.part quote ++ [sign .dot, key] := print_eq ..
  have isName : key.kind.isName := isName_keyword? name
  have known : key.kind ≠ .eof := by
    intro h
    rw [h] at isName
    cases isName
  refine .of_unary (by simp [partKinds]) print_eq fun {depth t m} stop deep => ?_
  rw [List.append_assoc] at deep ⊢
  refine h.operand_access deep (by simp) ?_ stop.stops.1
  unfold access property
  refine (accept_reads rfl (by decide) (by simp)).bind ?_
  refine Reads.bind ((current_reads key _).bind ?_) (reads_pure _ _)
  rw [if_pos isName]
  refine (advance_reads known (by simp)).bind ?_
  rw [span_bare, bare_mk]
  exact extended_reads _ _ _ _ _

lemma readBack_getElem {object index : Node} (h : ReadBack quote object)
    (hi : ReadBack quote index) :
    ReadBack quote ⟨.getElem, [], span, {}, [object, index]⟩ := by
  have print_eq : (Node.mk .getElem [] span {} [object, index]).print quote =
      object.part quote ++ sign .lbracket :: index.part quote ++ [sign .rbracket] := print_eq ..
  refine .of_unary (by simp [partKinds]) print_eq fun {depth t m} stop deep => ?_
  simp only [List.append_assoc, List.cons_append, List.nil_append] at deep ⊢
  have inside : Reads (read depth .expression) (index.part quote ++ sign .rbracket :: t :: m)
      index.bare (sign .rbracket :: t :: m) := by
    refine hi.reads_expression (by decide) (by decide) ?_
    simp only [List.length_append, List.length_cons] at deep ⊢
    omega
  refine h.operand_access deep (by simp; omega) ?_ stop.stops.1
  unfold access
  refine (accept_passes (by simp)).bind ?_
  change Reads (accept .lbracket >>= _) _ _ _
  refine (accept_reads rfl (by decide) (by simp)).bind ?_
  change Reads (Grammar.index _ _ >>= _) _ _ _
  unfold Grammar.index
  refine Reads.bind (inside.withIn.bind ((expect_reads rfl (by decide) (by simp)).bind ?_))
    (reads_pure _ _)
  rw [span_bare, bare_mk]
  exact node_reads _ _ _

/-! ### Calls -/

variable {args : List Node}

lemma arguments_reads (h : ∀ n ∈ args, ReadsItem quote spreadable .rparen n) (hl : l ≠ [])
    (deep : (argumentList quote args ++ l).length ≤ depth + 1) :
    Reads (arguments (read depth)) (argumentList quote args ++ l) (args.map bare) l := by
  have split : argumentList quote args ++ l =
      sign .lparen :: (separated (args.map (part quote)) ++ sign .rparen :: l) := by
    simp [argumentList, grouped]
  rw [split] at deep ⊢
  have items := list_separated h (by decide) (by decide) (@kind_sign .rparen)
    (Nat.le_of_succ_le_succ deep)
  unfold arguments
  refine (advance_reads (by simp) (by simp)).bind (items.withIn.bind ?_)
  exact (expect_reads rfl (by decide) hl).map

lemma readBack_call {callee : Node} (h : ReadBack quote callee)
    (ha : ∀ n ∈ args, ReadsItem quote spreadable .rparen n) :
    ReadBack quote ⟨.call, [], span, {}, callee :: args⟩ := by
  have print_eq : (Node.mk .call [] span {} (callee :: args)).print quote =
      callee.part quote ++ argumentList quote args := print_eq ..
  refine .of_unary (by simp [partKinds]) print_eq fun {depth t m} stop deep => ?_
  rw [List.append_assoc] at deep ⊢
  have arguments : Reads (arguments (read depth)) (argumentList quote args ++ t :: m)
      (args.map bare) (t :: m) := by
    refine arguments_reads ha (by simp) ?_
    rw [List.length_append] at deep
    omega
  have taken : (t :: m).length < (argumentList quote args ++ t :: m).length := by
    simp [argumentList, grouped]
    omega
  refine h.operand_access deep taken ?_ stop.stops.1
  unfold access
  refine (accept_passes (by simp)).bind ?_
  change Reads (accept .lbracket >>= _) _ _ _
  refine (accept_passes (by simp)).bind ((isAt_true rfl).bind ?_)
  change Reads (Grammar.arguments _ >>= _) _ _ _
  refine arguments.bind ?_
  rw [span_bare, bare_mk]
  exact (node_reads _ _ _).map

/-- The arguments belong to the `new`, and not to what it creates. -/
lemma readBack_new {callee : Node} (h : ReadBack quote callee)
    (ha : ∀ n ∈ args, ReadsItem quote spreadable .rparen n) :
    ReadBack quote ⟨.new, [], span, {}, callee :: args⟩ := by
  have print_eq : (Node.mk .new [] span {} (callee :: args)).print quote =
      sign .kwNew :: (callee.part quote ++ argumentList quote args) := print_eq ..
  refine .of_unary (by simp [partKinds]) print_eq fun {depth t m} stop deep => ?_
  rw [List.cons_append, List.append_assoc] at deep ⊢
  have shorter := Nat.le_of_succ_le deep
  have group := h.primary (by simp) shorter
  have created : Reads (created (read depth))
      (callee.part quote ++ (argumentList quote args ++ t :: m)) callee.bare
      (argumentList quote args ++ t :: m) := by
    rw [h.opens] at group ⊢
    unfold Grammar.created
    exact (isAt_false (by simp)).bind group
  have arguments : Reads (createdArguments (read depth)) (argumentList quote args ++ t :: m)
      (args.map bare) (t :: m) := by
    unfold createdArguments
    refine (isAt_true rfl).bind (arguments_reads ha (by simp) ?_)
    rw [List.length_append] at shorter
    omega
  refine unary_of_operand (operand_of_base ?_ stop.stops.1) (by decide)
  unfold operandBase newExpression
  refine (isAt_true rfl).bind ((advance_reads (by simp) (by simp)).bind (created.bind ?_))
  -- a call is no access here, so the parenthesis is left for the arguments
  refine (accesses_end ⟨by simp, by simp⟩ (.inl rfl)).bind (arguments.bind ?_)
  rw [bare_mk]
  exact node_reads _ _ _

end Grammar

end ModuleLint
