import ModuleLint.Grammar.Expression
import ModuleLint.Proofs.Grammar.TokenSurvival

/-!
Patterns, functions, literals, classes and expressions survive an edit.

Their readers do, given that the readers of the nonterminals inside do. An expression starts before
a token that is left alone and ends where a semicolon may be written.
-/

namespace ModuleLint

open Grammar Reader

/-- Where a nonterminal ends: anything may follow a statement. -/
def Nonterminal.stop : Nonterminal → Stand
  | .statement => .done
  | _ => .loose

/-- Where a nonterminal is read. -/
def Nonterminal.place : Nonterminal → ReaderState → Prop
  | .newExpression => (·.current.kind = .kwNew)
  | _ => anywhere

/-- The readers of all nonterminals survive the edit, whatever brackets are open. -/
def SurviveAll (E : Edit) (readers readers' : Readers) : Prop :=
  ∀ (nt : Nonterminal) (n : Nat),
    Survives E nt.place .fresh nt.stop n n (·.respan E.spans) (readers nt) (readers' nt)

namespace Grammar

variable {E : Edit} {readers readers' : Readers} {n : Nat} {k m : Stand}

/-! ### Patterns -/

lemma isOrdinary_of_key {kind : TokenKind}
    (key : kind.isName ∨ kind = .string ∨ kind = .number) (isElse : kind ≠ .kwElse) :
    kind.isOrdinary = true := by
  cases kind <;> first | rfl | exact absurd rfl isElse | exact absurd key (by decide)

/-- A name that is taken, also where `else` is one. -/
lemma advance_survives_key {place : ReaderState → Prop} (key : ∀ s, place s →
      s.current.kind.isName ∨ s.current.kind = .string ∨ s.current.kind = .number)
    (name : k.takes .identifier m = true) (keyword : k.takes .kwElse m = true) :
    Survives E place k m n n (·.respan E.spans) advance advance := by
  refine advance_survives fun s here => ?_
  by_cases isElse : s.current.kind = .kwElse
  · rw [isElse]
    exact ⟨keyword, rfl⟩
  · have ordinary := isOrdinary_of_key (key s here) isElse
    exact ⟨Stand.takes_of_isOrdinary ordinary name, TokenKind.depthAfter_of_isOrdinary ordinary⟩

lemma propertyKey_survives (hk : k.isInside = true) (name : k.takes .identifier m = true)
    (keyword : k.takes .kwElse m = true) :
    Survives E anywhere k m n n (·.respan E.spans) propertyKey propertyKey := by
  unfold propertyKey
  refine .current hk fun t => .ite (fun key => ?_) fun _ => survives_failHere
  exact advance_survives_key (fun s here => here.2 ▸ key) name keyword

lemma objectRest_survives (start : Span) :
    Endures E .amid .loose n (objectRest start)
      (objectRest (E.spans.span start)) := by
  unfold objectRest
  exact (expect_survives rfl rfl rfl).bind fun t => node_survives rfl .rest start [nameOf t]

variable (hr : SurviveAll E readers readers')
include hr

lemma computedKey_survives :
    Survives E anywhere .amid .loose (n + 1) n (·.respan E.spans) (computedKey readers)
      (computedKey readers') := by
  unfold computedKey
  refine ((hr .assignment _).from rfl).bind fun key => ?_
  exact (expect_survives rfl rfl rfl).bind fun _ => survives_pure rfl

lemma computedEntry_survives (start : Span) :
    Survives E anywhere .amid .loose (n + 1) n (·.respan E.spans) (computedEntry readers start)
      (computedEntry readers' (E.spans.span start)) := by
  unfold computedEntry
  refine (computedKey_survives hr).bind fun key => ?_
  refine (expect_survives (m := .amid) rfl rfl rfl).bind fun _ => ?_
  exact ((hr .bindingElement _).from rfl).bind fun element =>
    node_survives rfl _ start [key, element]

lemma entryValue_survives (start : Span) (key : Token) :
    Endures E .amid .amid n (entryValue readers start key)
      (entryValue readers' (E.spans.span start) (key.respan E.spans)) := by
  unfold entryValue
  refine .accept (m := .amid) rfl rfl rfl (((hr .bindingElement _).from rfl).upTo rfl) ?_
  refine .ite (fun _ => survives_fail) fun _ => .accept (m := .amid) rfl rfl rfl ?_ ?_
  · refine ((hr .assignment _).from rfl).bind fun fallback => ?_
    exact (node_survives rfl _ start [nameOf key, fallback]).upTo rfl
  · exact survives_pure (Node.respan_leaf E.spans .name key.value key.span).symm

lemma objectEntry_survives :
    Endures E .amid .amid n (objectEntry readers)
      (objectEntry readers') := by
  unfold objectEntry
  refine .here rfl fun start => .accept (m := .amid) rfl rfl rfl ?_ ?_
  · exact (objectRest_survives start).upTo rfl
  refine .accept (m := .amid) rfl rfl rfl ?_ ?_
  · exact (computedEntry_survives hr start).upTo rfl
  · refine (propertyKey_survives (m := .amid) rfl rfl rfl).bind fun key => ?_
    refine (entryValue_survives hr start key).bind fun value => ?_
    exact extended_mk_survives rfl _ key.value start _ [value]

lemma objectPattern_survives :
    Survives E (·.current.kind = .lbrace) .fresh .loose n n (·.respan E.spans)
      (objectPattern readers) (objectPattern readers') := by
  unfold objectPattern
  refine (advance_survives_at (m := .amid) rfl rfl).bind fun brace => ?_
  refine (list_survives (objectEntry_survives hr) _ _).bind fun entries => ?_
  exact (expect_survives rfl rfl rfl).bind fun _ => node_survives rfl _ brace.span entries

lemma restElement_survives :
    Survives E (·.current.kind = .ellipsis) .amid .loose n n (·.respan E.spans)
      (restElement readers) (restElement readers') := by
  unfold restElement
  refine (advance_survives_at (m := .amid) rfl rfl).bind fun dots => ?_
  exact ((hr .bindingTarget _).from rfl).bind fun target =>
    node_survives rfl _ dots.span [target]

lemma listElement_survives :
    Endures E .amid .amid n (listElement readers) (listElement readers') := by
  unfold listElement
  refine .isAt rfl ?_ (((hr .bindingElement _).from rfl).upTo rfl)
  exact ((restElement_survives hr).within fun _ here => here.2).upTo rfl

lemma arrayPattern_survives :
    Survives E (·.current.kind = .lbracket) .fresh .loose n n (·.respan E.spans)
      (arrayPattern readers) (arrayPattern readers') := by
  unfold arrayPattern
  refine (advance_survives_at (m := .amid) rfl rfl).bind fun bracket => ?_
  refine (list_survives (listElement_survives hr) _ _).bind fun elements => ?_
  exact (expect_survives rfl rfl rfl).bind fun _ => node_survives rfl _ bracket.span elements

lemma pattern_survives :
    Survives E (·.current.kind ∈ [.lbrace, .lbracket]) .fresh .loose n n (·.respan E.spans)
      (pattern readers) (pattern readers') := by
  unfold pattern
  refine .test false nofun (fun h _ => by rw [h]; rfl) nofun ?_ ?_
  · exact (objectPattern_survives hr).within fun s here => beq_iff_eq.mp here.2
  · refine (arrayPattern_survives hr).within fun s here => ?_
    simpa [ne_of_beq_false here.2] using here.1

lemma bindingTarget_survives :
    Endures E .fresh .loose n (bindingTarget readers) (bindingTarget readers') := by
  unfold bindingTarget
  refine .isAtAny rfl ((pattern_survives hr).within fun _ here => here.2) ?_
  exact (expect_survives rfl rfl rfl).bind fun t =>
    survives_pure (Node.respan_leaf E.spans .name t.value t.span).symm

lemma bindingElement_survives :
    Endures E .fresh .loose n (bindingElement readers) (bindingElement readers') := by
  unfold bindingElement
  refine .here rfl fun start => (bindingTarget_survives hr).wherever.bind fun target => ?_
  refine .accept (m := .amid) rfl rfl rfl ?_ (survives_pure rfl)
  refine ((hr .assignment _).from rfl).bind fun fallback => ?_
  exact node_survives rfl _ start [target, fallback]

/-! ### Functions -/

lemma block_survives : Endures E .fresh .loose n (block readers) (block readers') := by
  unfold block
  refine .here rfl fun start => (expect_survives (m := .inside) rfl rfl rfl).bind fun _ => ?_
  refine (statements_survives (.inl rfl) (hr .statement _) _).bind fun body => ?_
  exact (expect_survives rfl rfl rfl).bind fun _ => node_survives rfl _ start body

lemma parameters_survives :
    Endures E .fresh .loose n (parameters readers) (parameters readers') := by
  unfold parameters
  refine .here rfl fun start => (expect_survives (m := .amid) rfl rfl rfl).bind fun _ => ?_
  refine (list_survives (listElement_survives hr) _ _).bind fun items => ?_
  exact (expect_survives rfl rfl rfl).bind fun _ => node_survives rfl _ start items

lemma functionRest_survives (start : Span) (flags : NodeFlags) (name : Node) :
    Endures E .fresh .loose n (functionRest readers start flags name)
      (functionRest readers' (E.spans.span start) flags (name.respan E.spans)) := by
  unfold functionRest
  refine (parameters_survives hr).bind fun params => ?_
  refine (((block_survives hr).withIn true).from rfl).bind fun body => ?_
  exact extended_mk_survives rfl _ _ start flags [name, params, body]

lemma method_survives (start : Span) (flags : NodeFlags) :
    Endures E .fresh .loose n (method readers start flags)
      (method readers' (E.spans.span start) flags) := by
  unfold method
  rw [← Node.respan_leaf]
  exact functionRest_survives hr start flags _

omit hr in
lemma functionName_survives (isExpression : Bool) :
    Endures E .amid .amid n (functionName isExpression) (functionName isExpression) := by
  unfold functionName
  refine .isAt rfl ?_ (.ite (fun _ => .here rfl fun span => ?_) fun _ => survives_failHere)
  · refine (advance_survives_of_kind (m := .amid) rfl rfl).bind fun t => survives_pure ?_
    exact (Node.respan_leaf E.spans .name t.value t.span).symm
  · exact survives_pure (Node.respan_leaf E.spans .name [] span).symm

lemma function_survives (isExpression : Bool) (flags : NodeFlags) :
    Survives E (·.current.kind = .kwFunction) .fresh .loose n n (·.respan E.spans)
      (function readers isExpression flags) (function readers' isExpression flags) := by
  unfold function
  refine (advance_survives_at (m := .amid) rfl rfl).bind fun keyword => ?_
  refine (accept_survives rfl rfl rfl).bind fun isGenerator => ?_
  refine (functionName_survives isExpression).bind fun name => ?_
  exact (functionRest_survives hr keyword.span _ name).from rfl

/-! ### Arrow functions -/

section Ahead

variable {place : ReaderState → Prop} {k' : Stand} {i j : Nat} {c : List E.Semicolon}
  {s s' : ReaderState} {α β : Type} {g : α → β} {f : Bool → Reader α} {f' : Bool → Reader β}

omit hr in
lemma kind_of_isWord {word : Bytes} {t : Token} (h : isWord word t = true) :
    t.kind = .identifier := beq_iff_eq.mp (Bool.and_eq_true_iff.mp h).1

omit hr in
/-- Before a token that allows an omission, `async` stands before no function. -/
lemma not_function_of_omission {t : Token} (h : t.AllowsOmission) :
    (t.kind == .kwFunction && !t.newlineBefore) = false := by
  obtain kind | kind | line := h.omissible
  · rw [kind]
    rfl
  · rw [kind]
    rfl
  · rw [line, Bool.not_true, Bool.and_false]

omit hr in
lemma not_arrow_of_omission (h : (nextToken s).AllowsOmission) :
    (!(nextToken s).newlineBefore && startsArrow s.ahead) = false := by
  unfold nextToken at h ⊢
  cases hl : s.ahead with
  | nil => rw [startsArrow, Bool.and_false]
  | cons t rest =>
    rw [hl] at h
    replace h : t.AllowsOmission := h
    change (!t.newlineBefore && startsArrow (t :: rest)) = false
    obtain kind | kind | line := h.omissible
    · rw [startsArrow, kind]
      exact Bool.and_false _
    · rw [startsArrow, kind]
      exact Bool.and_false _
    · rw [line]
      rfl

omit hr in
/-- What stands before a function or an arrow function does not change. -/
lemma isAsync_related (related : E.Related k c s s') (known : E.Known k s)
    (margin : E.Margin k c s) (hk : k.isInside = true) :
    isAsyncFunction s' = isAsyncFunction s ∧ isAsyncArrow s' = isAsyncArrow s := by
  unfold isAsyncFunction isAsyncArrow
  rw [(related.head margin hk).1, show isWord (ascii "async") (s.current.respan E.spans) =
    isWord (ascii "async") s.current from rfl]
  by_cases word : isWord (ascii "async") s.current
  · have noSemi : s.current.kind ≠ .semi := by
      rw [kind_of_isWord word]
      decide
    obtain ⟨next, starts⟩ | ⟨semi, none, omission⟩ := related.next known margin hk noSemi
    · rw [next, starts]
      exact ⟨rfl, rfl⟩
    · have noFunction : ((nextToken s').kind == .kwFunction) = false := by
        rw [semi]
        rfl
      simp only [Bool.and_assoc, noFunction, none, not_function_of_omission omission,
        not_arrow_of_omission omission, Bool.false_and, Bool.and_false, and_self]
  · simp only [word, Bool.false_and, and_self]

end Ahead

lemma arrowParameters_survives :
    Endures E .fresh .loose n (arrowParameters readers) (arrowParameters readers') := by
  unfold arrowParameters
  refine .isAt rfl ?_ (parameters_survives hr)
  exact (advance_survives_of_kind rfl rfl).bind fun t => survives_pure rfl

lemma arrowBody_survives : Endures E .fresh .loose n (arrowBody readers) (arrowBody readers') := by
  unfold arrowBody
  exact .isAt rfl ((block_survives hr).withIn true).wherever (hr .assignment _)

lemma arrowFunction_survives (isAsync : Bool) :
    Endures E .fresh .loose n (arrowFunction readers isAsync) (arrowFunction readers' isAsync) := by
  unfold arrowFunction
  refine .here rfl fun start => (arrowParameters_survives hr).bind fun params => ?_
  refine (expect_survives (m := .amid) rfl rfl rfl).bind fun _ => ?_
  refine ((arrowBody_survives hr).from rfl).bind fun body => ?_
  exact extended_mk_survives rfl _ _ start _ [Node.leaf .name [] start, params, body]

/-! ### Accesses -/

lemma spread_survives :
    Survives E (·.current.kind = .ellipsis) .amid .loose n n (·.respan E.spans) (spread readers)
      (spread readers') := by
  unfold spread
  refine (advance_survives_at (m := .amid) rfl rfl).bind fun dots => ?_
  exact ((hr .assignment _).from rfl).bind fun value => node_survives rfl _ dots.span [value]

lemma spreadable_survives :
    Endures E .amid .loose n (spreadable readers) (spreadable readers') := by
  unfold spreadable
  refine .isAt rfl ((spread_survives hr).within fun _ here => here.2) ?_
  exact (hr .assignment _).from rfl

lemma arguments_survives :
    Survives E (·.current.kind = .lparen) .amid .loose n n (List.map (·.respan E.spans))
      (arguments readers) (arguments readers') := by
  unfold arguments
  refine (advance_survives_at (m := .amid) rfl rfl).bind fun _ => ?_
  refine ((list_survives ((spreadable_survives hr).upTo rfl) _ _).withIn true).bind fun l => ?_
  exact (expect_survives rfl rfl rfl).bind fun _ => survives_pure rfl

omit hr in
lemma property_survives (object : Node) :
    Endures E .amid .loose n (property object) (property (object.respan E.spans)) := by
  unfold property
  refine .current rfl fun t => .ite (fun name => ?_) fun _ => survives_failHere
  rw [Node.span_respan]
  refine (advance_survives_key (m := .loose) (fun s here => .inl ?_) rfl rfl).bind fun t => ?_
  · rw [here.2]
    exact name
  · exact extended_mk_survives rfl _ t.value object.span _ [object]

lemma index_survives (object : Node) :
    Survives E anywhere .amid .loose (n + 1) n (·.respan E.spans) (index readers object)
      (index readers' (object.respan E.spans)) := by
  unfold index
  refine (((hr .expression _).withIn true).from rfl).bind fun i => ?_
  rw [Node.span_respan]
  exact (expect_survives rfl rfl rfl).bind fun _ => node_survives rfl _ object.span [object, i]

lemma access_survives (allowCall : Bool) (operand : Node) :
    Survives E anywhere .loose .loose n n (Option.map (·.respan E.spans))
      (access readers allowCall operand)
      (access readers' allowCall (operand.respan E.spans)) := by
  unfold access
  refine .accept (m := .amid) rfl rfl rfl ?_ (.accept (m := .amid) rfl rfl rfl ?_ ?_)
  · exact (property_survives operand).bind fun n => survives_pure rfl
  · exact (index_survives hr operand).bind fun n => survives_pure rfl
  · cases allowCall with
    | false =>
      change Survives E _ _ _ _ _ _ (pure none) (pure none)
      exact survives_pure rfl
    | true =>
      rw [Node.span_respan]
      refine .test false nofun (fun h _ => by rw [h]; rfl) (fun _ s semi => by rw [semi]; rfl) ?_ ?_
      · refine ((arguments_survives hr).within fun s here => ?_).bind fun args => ?_
        · exact beq_iff_eq.mp here.2
        · exact (node_survives rfl _ operand.span (operand :: args)).bind fun n => survives_pure rfl
      · exact survives_pure rfl

lemma accesses_survives (allowCall : Bool) (operand : Node) :
    Endures E .loose .loose n (accesses readers allowCall operand)
      (accesses readers' allowCall (operand.respan E.spans)) :=
  .growing (access_survives hr allowCall) operand

/-! ### Literals -/

lemma arrayLiteral_survives :
    Survives E (·.current.kind = .lbracket) .fresh .loose n n (·.respan E.spans)
      (arrayLiteral readers) (arrayLiteral readers') := by
  unfold arrayLiteral
  refine (advance_survives_at (m := .amid) rfl rfl).bind fun bracket => ?_
  refine (list_survives ((spreadable_survives hr).upTo rfl) _ _).allowingIn.bind fun l => ?_
  exact (expect_survives rfl rfl rfl).bind fun _ => node_survives rfl _ bracket.span l

omit hr in
lemma modifiers_survives (flags : NodeFlags) {applies : Token → Bool}
    (h : Modifiable E k applies) :
    Survives E anywhere k k n n id (modifiers flags applies) (modifiers flags applies) := by
  have onLine : Modifiable E k fun t => applies t && !t.newlineBefore := by
    refine h.mono (fun t none => ?_) fun t => ?_
    · rw [none, Bool.false_and]
    · rw [h.same]
      rfl
  have alone (isGetter : Bool) : Modifiable E k fun t => !isGetter && applies t := by
    refine h.mono (fun t none => ?_) fun t => ?_
    · rw [none, Bool.and_false]
    · rw [h.same]
  unfold modifiers
  refine (acceptWord_survives onLine).bind fun isAsync => ?_
  refine (acceptWord_survives h).bind fun isGetter => ?_
  exact (acceptWord_survives (alone isGetter)).bind fun isSetter => survives_pure rfl

lemma computedProperty_survives (start : Span) (flags : NodeFlags) :
    Survives E anywhere .amid .loose (n + 1) n (·.respan E.spans)
      (computedProperty readers start flags)
      (computedProperty readers' (E.spans.span start) flags) := by
  unfold computedProperty
  refine (computedKey_survives hr).bind fun key => .isAt rfl ?_ ?_
  · refine ((method_survives hr start flags).from rfl).bind fun value => ?_
    exact extended_mk_survives rfl _ _ start _ [key, value]
  · refine (expect_survives (m := .amid) rfl rfl rfl).bind fun _ => ?_
    refine ((hr .assignment _).from rfl).bind fun value => ?_
    exact extended_mk_survives rfl _ _ start _ [key, value]

lemma memberFunction_survives (start : Span) (flags : NodeFlags) (key : Token) :
    Endures E .fresh .loose n (memberFunction readers start flags key)
      (memberFunction readers' (E.spans.span start) flags (key.respan E.spans)) := by
  unfold memberFunction
  refine (method_survives hr start flags).bind fun value => ?_
  exact extended_mk_survives rfl _ key.value start _ [value]

lemma keyedValue_survives (start : Span) (key : Token) :
    Survives E anywhere .amid .amid n n (List.map (·.respan E.spans))
      (keyedValue readers start key)
      (keyedValue readers' (E.spans.span start) (key.respan E.spans)) := by
  unfold keyedValue
  refine .accept (m := .amid) rfl rfl rfl ?_ (.ite (fun _ => survives_fail) fun _ => ?_)
  · exact (((hr .assignment _).from rfl).upTo rfl).bind fun value => survives_pure rfl
  refine .accept (m := .amid) rfl rfl rfl ?_ (survives_pure rfl)
  refine ((hr .assignment _).from rfl).bind fun fallback => ?_
  exact ((node_survives rfl _ start [nameOf key, fallback]).upTo rfl).bind fun n =>
    survives_pure rfl

lemma keyedProperty_survives :
    Endures E .before .amid n (keyedProperty readers) (keyedProperty readers') := by
  unfold keyedProperty
  refine .here rfl fun start => ?_
  refine (modifiers_survives {} ⟨.inl rfl, fun _ => rfl⟩).bind fun flags => ?_
  refine (accept_survives rfl rfl rfl).bind fun isGenerator => ?_
  refine .accept (m := .amid) rfl rfl rfl ?_ ?_
  · exact (computedProperty_survives hr start flags).upTo rfl
  refine (propertyKey_survives (m := .amid) rfl rfl rfl).bind fun key => ?_
  refine .same rfl (fun h _ => by rw [h]; rfl) fun b => .ite (fun _ => ?_) fun _ => ?_
  · exact ((memberFunction_survives hr start flags key).from rfl).upTo rfl
  · refine (keyedValue_survives hr start key).wherever.bind fun l => ?_
    exact extended_mk_survives rfl _ key.value start _ l

lemma objectProperty_survives :
    Endures E .amid .amid n (objectProperty readers) (objectProperty readers') := by
  unfold objectProperty
  refine .isAt rfl ?_ ((keyedProperty_survives hr).between rfl rfl)
  exact ((spread_survives hr).within fun _ here => here.2).upTo rfl

lemma objectLiteral_survives :
    Survives E (·.current.kind = .lbrace) .fresh .loose n n (·.respan E.spans)
      (objectLiteral readers) (objectLiteral readers') := by
  unfold objectLiteral
  refine (advance_survives_at (m := .amid) rfl rfl).bind fun brace => ?_
  refine (list_survives (objectProperty_survives hr) _ _).allowingIn.bind fun l => ?_
  exact (expect_survives rfl rfl rfl).bind fun _ => node_survives rfl _ brace.span l

/-! ### Classes -/

lemma fieldValue_survives :
    Survives E anywhere .loose .loose n n (List.map (·.respan E.spans)) (fieldValue readers)
      (fieldValue readers') := by
  unfold fieldValue
  refine .accept (m := .amid) rfl rfl rfl ?_ (survives_pure rfl)
  exact ((hr .assignment _).from rfl).bind fun value => survives_pure rfl

lemma field_survives (start : Span) (flags : NodeFlags) (name : Bytes) :
    Endures E .loose .done n (field readers start flags name)
      (field readers' (E.spans.span start) flags name) := by
  unfold field
  refine (fieldValue_survives hr).bind fun l => semicolon_survives.bind fun _ => ?_
  exact extended_mk_survives rfl _ name start _ l

lemma unnamedMember_survives (start : Span) (flags : NodeFlags) :
    Endures E .loose .done n (unnamedMember readers start flags)
      (unnamedMember readers' (E.spans.span start) flags) := by
  unfold unnamedMember
  refine .isAt rfl ?_ (field_survives hr start flags [])
  exact ((method_survives hr start flags).from rfl).upTo rfl

lemma computedMember_survives (start : Span) (flags : NodeFlags) :
    Survives E anywhere .amid .done (n + 1) n (·.respan E.spans)
      (computedMember readers start flags)
      (computedMember readers' (E.spans.span start) flags) := by
  unfold computedMember
  refine (computedKey_survives hr).bind fun key => ?_
  refine (unnamedMember_survives hr start flags).bind fun value => ?_
  exact extended_mk_survives rfl _ _ start _ [key, value]

lemma namedMember_survives (start : Span) (flags : NodeFlags) :
    Endures E .inside .done n (namedMember readers start flags)
      (namedMember readers' (E.spans.span start) flags) := by
  unfold namedMember
  refine (propertyKey_survives (m := .loose) rfl rfl rfl).bind fun key => .isAt rfl ?_ ?_
  · exact ((memberFunction_survives hr start flags key).from rfl).upTo rfl
  · exact field_survives hr start flags key.value

omit hr in
lemma modifiesMember_modifiable : Modifiable E .inside modifiesMember := by
  refine ⟨.inr ⟨rfl, fun t semi => ?_⟩, fun _ => rfl⟩
  rw [modifiesMember, semi]
  rfl

/-- Whether a static block starts here. -/
def isStaticBlock (s : ReaderState) : Bool :=
  isWord (ascii "static") s.current && (nextToken s).kind == .lbrace

omit hr in
/-- Where no static block starts, none does after semicolons are written. -/
lemma isStaticBlock_related {c : List E.Semicolon} {s s' : ReaderState}
    (related : E.Related .inside c s s') (known : E.Known .inside s)
    (margin : E.Margin .inside c s)
    (h : isStaticBlock s = false) : isStaticBlock s' = false := by
  unfold isStaticBlock at h ⊢
  rw [(related.head margin rfl).1]
  change (isWord (ascii "static") s.current && _) = _
  by_cases word : isWord (ascii "static") s.current
  · have noSemi : s.current.kind ≠ .semi := by
      rw [kind_of_isWord word]
      decide
    obtain ⟨next, -⟩ | ⟨semi, -⟩ := related.next known margin rfl noSemi
    · rw [next]
      exact h
    · rw [semi]
      exact Bool.and_false _
  · simp only [word, Bool.false_and]

lemma classMember_survives :
    Endures E .inside .done n (classMember readers) (classMember readers') := by
  -- Wherever a member was read, the test for a static block has failed.
  have passed (s : ReaderState) (m : Node) (t : ReaderState)
      (run : classMember readers s = .ok m t) : isStaticBlock s = false := by
    obtain ⟨b, u, first, second⟩ := bind_eq_ok run
    cases first
    change (if isStaticBlock s = true then _ else _ : Reader Node) s = _ at second
    split at second
    case isTrue => cases second
    case isFalse no => exact eq_false_of_ne_true no
  refine .knowing passed ?_
  unfold classMember
  refine .told (o := isStaticBlock) (fun {c s s'} here related known margin => ?_)
    survives_failHere ?_
  · rw [here.2]
    exact isStaticBlock_related related known margin here.2
  refine .here rfl fun start => ?_
  refine (acceptWord_survives modifiesMember_modifiable).bind fun isStatic => ?_
  refine (modifiers_survives _ modifiesMember_modifiable).bind fun flags => ?_
  refine (accept_survives rfl rfl rfl).bind fun _ => .accept (m := .amid) rfl rfl rfl ?_ ?_
  · exact computedMember_survives hr start flags
  · exact namedMember_survives hr start flags

lemma memberTurn_survives :
    Survives E anywhere .inside .inside n n (Turn.respan E.spans) (memberTurn readers)
      (memberTurn readers') := by
  unfold memberTurn
  refine .isAtAny rfl (survives_pure rfl) (.accept rfl rfl rfl (survives_pure rfl) ?_)
  exact ((classMember_survives hr).upTo rfl).bind fun n => survives_pure rfl

omit hr in
lemma className_survives (isExpression : Bool) :
    Endures E .amid .amid n (className isExpression) (className isExpression) := by
  unfold className
  refine .isAt rfl ?_ (.ite (fun _ => .here rfl fun span => ?_) fun _ => survives_failHere)
  · exact (advance_survives_of_kind rfl rfl).bind fun t => survives_pure rfl
  · exact survives_pure rfl

lemma heritage_survives : Endures E .amid .amid n (heritage readers) (heritage readers') := by
  unfold heritage
  refine .accept (m := .amid) rfl rfl rfl ?_ (.here rfl fun span => survives_pure rfl)
  exact ((hr .primary _).from rfl).bind fun base => (accesses_survives hr true base).upTo rfl

lemma classBody_survives : Endures E .amid .loose n (classBody readers) (classBody readers') := by
  unfold classBody
  refine .here rfl fun start => (expect_survives (m := .inside) rfl rfl rfl).bind fun _ => ?_
  refine (memberTurn_survives hr).repeatedly.bind fun members => ?_
  exact (expect_survives rfl rfl rfl).bind fun _ => node_survives rfl _ start members

lemma classDefinition_survives (isExpression : Bool) :
    Survives E (·.current.kind = .kwClass) .fresh .loose n n (·.respan E.spans)
      (classDefinition readers isExpression) (classDefinition readers' isExpression) := by
  unfold classDefinition
  refine (advance_survives_at (m := .amid) rfl rfl).bind fun keyword => ?_
  refine (className_survives isExpression).bind fun name => ?_
  refine (heritage_survives hr).bind fun base => (classBody_survives hr).bind fun members => ?_
  exact node_survives rfl _ keyword.span [name, base, members]

/-! ### Operands -/

lemma parenthesized_survives :
    Survives E (·.current.kind = .lparen) .fresh .loose n n (·.respan E.spans)
      (parenthesized readers) (parenthesized readers') := by
  unfold parenthesized
  refine (advance_survives_at (m := .amid) rfl rfl).bind fun _ => ?_
  refine (((hr .expression _).withIn true).from rfl).bind fun inner => ?_
  exact (expect_survives rfl rfl rfl).bind fun _ => survives_pure rfl

omit hr in
lemma isOrdinary_of_literal {kind : TokenKind} {x : NodeKind × Bool}
    (h : literalKind? kind = some x) : kind.isOrdinary = true := by
  cases kind <;> first | rfl | cases h

omit hr in
lemma literal_survives {place : ReaderState → Prop} (kind : NodeKind) (keepsValue : Bool)
    (h : ∀ s, place s → s.current.kind.isOrdinary = true) :
    Survives E place .fresh .loose n n (·.respan E.spans) (literal kind keepsValue)
      (literal kind keepsValue) := by
  unfold literal
  refine (advance_survives_ordinary h rfl).bind fun t => survives_pure ?_
  exact (Node.respan_leaf E.spans kind _ t.span).symm

omit hr in
/-- The token after the current one is the current one after a step. -/
lemma step_current {s : ReaderState} (h : s.current.kind ≠ .eof) :
    (step s).current = nextToken s := by
  unfold step nextToken
  rw [if_neg h]
  cases s.ahead <;> rfl

omit hr in
lemma function_of_isAsyncFunction {s : ReaderState} (h : isAsyncFunction s = true) :
    s.current.kind = .identifier ∧ (nextToken s).kind = .kwFunction := by
  simp only [isAsyncFunction, Bool.and_eq_true, beq_iff_eq] at h
  exact ⟨kind_of_isWord h.1.1, h.1.2⟩

lemma asyncFunction_survives (isExpression : Bool) :
    Survives E (isAsyncFunction · = true) .fresh .loose n n (·.respan E.spans)
      (asyncFunction readers isExpression) (asyncFunction readers' isExpression) := by
  unfold asyncFunction
  refine (advance_survives_ordinary (m := .fresh) (fun s here => ?_) rfl).andThen
    (fun {s t u} here run => ?_) fun _ => function_survives hr isExpression _
  · rw [(function_of_isAsyncFunction here).1]
    rfl
  · obtain ⟨word, next⟩ := function_of_isAsyncFunction here
    cases run
    rw [step_current (by rw [word]; decide)]
    exact next

lemma primary_survives : Endures E .fresh .loose n (primary readers) (primary readers') := by
  unfold primary
  refine .told (fun {c s s'} _ related known margin => (isAsync_related related known margin rfl).1)
    ((asyncFunction_survives hr true).within fun _ here => here.2) ?_
  refine .current rfl fun t => ?_
  rw [show (t.respan E.spans).kind = t.kind from rfl]
  split
  case h_1 kind keepsValue found =>
    exact literal_survives _ _ fun s here => here.2 ▸ isOrdinary_of_literal found
  case h_2 =>
    split
    case h_1 kind => exact (parenthesized_survives hr).within fun s here => here.2 ▸ kind
    case h_2 kind => exact (arrayLiteral_survives hr).within fun s here => here.2 ▸ kind
    case h_3 kind => exact (objectLiteral_survives hr).within fun s here => here.2 ▸ kind
    case h_4 kind => exact (function_survives hr true {}).within fun s here => here.2 ▸ kind
    case h_5 kind => exact (classDefinition_survives hr true).within fun s here => here.2 ▸ kind
    case h_6 => exact survives_failHere

lemma created_survives : Endures E .fresh .loose n (created readers) (created readers') := by
  unfold created
  exact .isAt rfl ((hr .newExpression _).within fun _ here => here.2) (primary_survives hr)

lemma createdArguments_survives :
    Survives E anywhere .loose .loose n n (List.map (·.respan E.spans))
      (createdArguments readers) (createdArguments readers') := by
  unfold createdArguments
  exact .isAt rfl ((arguments_survives hr).within fun _ here => here.2) (survives_pure rfl)

lemma newExpression_survives :
    Survives E (·.current.kind = .kwNew) .fresh .loose n n (·.respan E.spans)
      (newExpression readers) (newExpression readers') := by
  unfold newExpression
  refine (advance_survives_at (m := .amid) rfl rfl).bind fun keyword => ?_
  refine ((created_survives hr).from rfl).bind fun callee => ?_
  refine (accesses_survives hr false callee).bind fun callee => ?_
  refine (createdArguments_survives hr).bind fun args => ?_
  exact node_survives rfl _ keyword.span (callee :: args)

omit hr in
lemma afterOperand_survives (start : Span) (operand : Node) :
    Endures E .loose .loose n (afterOperand start operand)
      (afterOperand (E.spans.span start) (operand.respan E.spans)) := by
  unfold afterOperand current
  rw [isReference_respan, Node.span_respan]
  refine .split (.test false nofun (fun h _ => by rw [h]; rfl) (fun _ s semi => ?_) ?_ ?_)
  · rw [semi]
    rfl
  · refine .current rfl fun t => .ite (fun _ => ?_) fun _ => survives_fail
    refine (advance_survives_ordinary (m := .loose) (fun s here => ?_) rfl).bind fun t => ?_
    · obtain kind | kind := (of_decide_eq_true here.1.2).1 <;> rw [kind] <;> rfl
    · exact extended_mk_survives rfl _ t.lexeme start _ [operand]
  · change Survives E _ _ _ _ _ _ (pure operand) (pure (operand.respan E.spans))
    exact survives_pure rfl

lemma operandBase_survives :
    Endures E .fresh .loose n (operandBase readers) (operandBase readers') := by
  unfold operandBase
  exact .isAt rfl ((newExpression_survives hr).within fun _ here => here.2) (primary_survives hr)

lemma operand_survives : Endures E .fresh .loose n (operand readers) (operand readers') := by
  unfold operand
  refine .here rfl fun start => (operandBase_survives hr).bind fun base => ?_
  exact (accesses_survives hr true base).bind fun n => afterOperand_survives start n

/-! ### Operators -/

omit hr in
lemma isOrdinary_of_unary {kind : TokenKind} (h : isUnaryOperator kind = true) :
    kind.isOrdinary = true := by
  cases kind <;> first | rfl | cases h

lemma unary_survives : Endures E .fresh .loose n (unary readers) (unary readers') := by
  unfold unary
  refine .current rfl fun t => .ite (fun isUnary => ?_) fun _ => .ite (fun isUpdate => ?_) fun _ =>
    (operand_survives hr).wherever
  · refine (advance_survives_ordinary (m := .amid) (fun s here => ?_) rfl).bind fun operator => ?_
    · exact here.2 ▸ isOrdinary_of_unary isUnary
    · refine ((hr .unary _).from rfl).bind fun argument => ?_
      exact extended_mk_survives rfl _ operator.lexeme operator.span _ [argument]
  · refine (advance_survives_ordinary (m := .amid) (fun s here => ?_) rfl).bind fun operator => ?_
    · rw [here.2]
      obtain kind | kind := isUpdate <;> rw [kind] <;> rfl
    · refine ((hr .unary _).from rfl).bind fun argument => ?_
      rw [isReference_respan, Node.span_respan]
      refine .ite (fun _ => ?_) fun _ => survives_fail
      exact extended_mk_survives rfl _ operator.lexeme operator.span _ [argument]

omit hr in
lemma isOrdinary_of_level {allowsIn : Bool} {kind : TokenKind} (h : level allowsIn kind ≠ 0) :
    kind.isOrdinary = true := by
  cases kind <;> first | rfl | exact absurd rfl h

lemma binaryTurn_survives (start : Span) (floor : Nat) (left : Node) :
    Survives E anywhere .loose .loose n n (Option.map (·.respan E.spans))
      (binaryTurn readers start floor left)
      (binaryTurn readers' (E.spans.span start) floor (left.respan E.spans)) := by
  unfold binaryTurn
  refine .split (.test true nofun (fun h ha => by rw [h, ha]; rfl) (fun _ s semi => ?_) ?_ ?_)
  · rw [semi]
    exact decide_eq_true (Nat.zero_le floor)
  · refine .same rfl (fun h ha => by rw [h, ha]; rfl) fun tightness => ?_
    refine (advance_survives_ordinary (m := .amid) (fun s here => ?_) rfl).bind fun operator => ?_
    · have tight := Nat.lt_of_not_le (of_decide_eq_false here.1.2)
      exact isOrdinary_of_level (Nat.ne_zero_of_lt tight)
    · refine ((hr (.binary _) _).from rfl).bind fun right => ?_
      exact (extended_mk_survives rfl _ operator.lexeme start _ [left, right]).bind fun n =>
        survives_pure rfl
  · change Survives E _ _ _ _ _ _ (pure none) (pure none)
    exact survives_pure rfl

lemma binary_survives (floor : Nat) :
    Endures E .fresh .loose n (binary readers floor) (binary readers' floor) := by
  unfold binary
  refine .here rfl fun start => (unary_survives hr).bind fun left => ?_
  exact .growing (binaryTurn_survives hr start floor) left

lemma conditional_survives :
    Endures E .fresh .loose n (conditional readers) (conditional readers') := by
  unfold conditional
  refine .here rfl fun start => (binary_survives hr 0).bind fun condition => ?_
  refine .accept (m := .amid) rfl rfl rfl ?_ (survives_pure rfl)
  refine (((hr .assignment _).withIn true).from rfl).bind fun whenTrue => ?_
  refine (expect_survives (m := .amid) rfl rfl rfl).bind fun _ => ?_
  refine ((hr .assignment _).from rfl).bind fun whenFalse => ?_
  exact node_survives rfl _ start [condition, whenTrue, whenFalse]

omit hr in
lemma isOrdinary_of_assignment {kind : TokenKind} (h : kind.isAssignmentOperator = true) :
    kind.isOrdinary = true := by
  cases kind <;> first | rfl | cases h

lemma assignmentRest_survives (start : Span) (target : Node) :
    Survives E (·.current.kind.isAssignmentOperator = true) .amid .loose n n (·.respan E.spans)
      (assignmentRest readers start target)
      (assignmentRest readers' (E.spans.span start) (target.respan E.spans)) := by
  unfold assignmentRest
  rw [isAssignable_respan, isReference_respan, Node.span_respan]
  refine (advance_survives_ordinary (m := .amid) (fun s here => ?_) rfl).bind fun operator => ?_
  · exact isOrdinary_of_assignment here
  refine .ite (fun _ => ?_) fun _ => survives_fail
  refine ((hr .assignment _).from rfl).bind fun value => .ite (fun _ => ?_) fun _ => ?_
  · exact node_survives rfl _ start [target, value]
  · exact extended_mk_survives rfl _ operator.lexeme start _ [target, value]

lemma assignment_survives :
    Endures E .fresh .loose n (assignment readers) (assignment readers') := by
  unfold assignment
  refine .told (fun {c s s'} _ related known margin => related.startsArrow known margin rfl)
    (arrowFunction_survives hr false).wherever ?_
  refine .told (fun {c s s'} _ related known margin => (isAsync_related related known margin rfl).2)
    ?_ ?_
  · refine (advance_survives_ordinary (m := .amid) (fun s here => ?_) rfl).bind fun _ =>
      (arrowFunction_survives hr true).from rfl
    simp only [isAsyncArrow, Bool.and_eq_true] at here
    rw [kind_of_isWord here.2.1.1]
    rfl
  · refine .here rfl fun start => (conditional_survives hr).wherever.bind fun target => ?_
    refine .test false nofun (fun h _ => by rw [h]; rfl) (fun _ s semi => by rw [semi]; rfl) ?_ ?_
    · exact (assignmentRest_survives hr start target).within fun s here => here.2
    · exact survives_pure rfl

lemma commaTurn_survives (start : Span) (left : Node) :
    Survives E anywhere .loose .loose n n (Option.map (·.respan E.spans))
      (commaTurn readers start left)
      (commaTurn readers' (E.spans.span start) (left.respan E.spans)) := by
  unfold commaTurn
  refine .accept (m := .amid) rfl rfl rfl ?_ (survives_pure rfl)
  refine ((assignment_survives hr).from rfl).bind fun right => ?_
  exact (node_survives rfl _ start [left, right]).bind fun n => survives_pure rfl

lemma expression_survives :
    Endures E .fresh .loose n (expression readers) (expression readers') := by
  unfold expression
  refine .here rfl fun start => (assignment_survives hr).bind fun first => ?_
  exact .growing (commaTurn_survives hr start) first

end Grammar

end ModuleLint
