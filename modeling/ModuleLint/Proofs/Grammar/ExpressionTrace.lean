import ModuleLint.Grammar.Expression
import ModuleLint.Proofs.Grammar.Trace

/-!
Where the nodes of patterns, functions, literals, classes and expressions lie.

The readers of the nonterminals inside are taken to read nodes that lie where they were read. A part
that needs the start of the whole is told the token `k` that it is, and where a name is left out the
node for it lies at a token that the rest of the whole takes.
-/

namespace ModuleLint.Grammar

open Reader Node

/-- Each reader reads nodes that cover some of the tokens it takes. -/
def TraceAll (all : List Token) (lo : Nat) (readers : Readers) : Prop :=
  ∀ nt i, Traces all lo i (Lies all i) (readers nt)

variable {all : List Token} {lo i k : Nat} {readers : Readers} {start : Span} {flags : NodeFlags}

/-! ### Patterns -/

lemma propertyKey_traces {V : Nat → Node → Prop} {f : Token → Reader Node}
    (hf : ∀ t, all[i]? = some t → Traces all lo (i + 1) V (f t)) :
    Traces all lo i V (propertyKey >>= f) := by
  have key : Traces all lo i (fun j t => all[i]? = some t ∧ j = i + 1) propertyKey := by
    unfold propertyKey
    refine .current fun t _ inside => .ite (fun names => ?_) fun _ => traces_failHere
    have notEnd : t.kind ≠ .eof := by
      intro eof
      rw [eof] at names
      rcases names with h | h | h <;> cases h
    exact traces_advance.mono fun j u _ ⟨hu, _, taken⟩ => ⟨hu, taken (inside notEnd)⟩
  refine key.bind fun t j _ ⟨ht, hj⟩ => ?_
  rw [hj]
  exact hf t ht

lemma objectRest_traces (hs : StartsAt all k start) (hk : k < i) :
    Traces all lo i (Lies all k) (objectRest start) := by
  unfold objectRest
  refine .expect rfl fun t ht => traces_node hs (by omega) ?_
  exact (lies_nameOf ht).alone (by omega) (Nat.le_refl _)

variable (hr : TraceAll all lo readers)
include hr

lemma computedKey_traces : Traces all lo i (Lies all i) (computedKey readers) := by
  unfold computedKey
  refine (hr .assignment i).bind fun key j _ lies => .expect rfl fun _ _ => traces_pure ?_
  exact lies.mono (Nat.le_refl i) (Nat.le_succ j)

lemma computedEntry_traces (hs : StartsAt all k start) (hk : k < i) :
    Traces all lo i (Lies all k) (computedEntry readers start) := by
  unfold computedEntry
  refine (computedKey_traces hr).bind fun key j _ liesKey => .expect rfl fun _ _ => ?_
  refine (hr .bindingElement (j + 1)).bind fun element m _ liesElement => ?_
  refine traces_node hs (by omega) (liesKey.cons (by omega) (by omega) ?_)
  exact liesElement.alone (by omega) (Nat.le_refl m)

lemma entryValue_traces {key : Token} (hs : StartsAt all k start) (hlo : lo ≤ k)
    (hi : k < i) {m : Nat} (hkey : all[m]? = some key) (hkm : k ≤ m) (hmi : m < i) :
    Traces all lo i (Lies all k) (entryValue readers start key) := by
  have keyStarts : StartsAt all m key.span := (spanOf_token hkey).startsAt
  unfold entryValue
  refine .accept rfl ?_ (.either (traces_fail ⟨m, by omega, by omega, keyStarts⟩) ?_)
  · refine (hr .bindingElement (i + 1)).mono fun j n _ lies => ?_
    exact lies.mono (by omega) (Nat.le_refl j)
  refine .accept rfl ?_ (traces_pure ((lies_nameOf hkey).mono hkm hmi))
  refine (hr .assignment (i + 1)).bind fun fallback j _ lies => traces_node hs (by omega) ?_
  exact (lies_nameOf hkey).cons hkm (by omega) (lies.alone (by omega) (Nat.le_refl j))

lemma objectEntry_traces : Traces all lo i (Lies all i) (objectEntry readers) := by
  unfold objectEntry
  refine traces_of_le fun hlo => .here fun start hs => ?_
  refine .accept rfl (objectRest_traces hs.startsAt (Nat.lt_succ_self i)) ?_
  refine .accept rfl (computedEntry_traces hr hs.startsAt (Nat.lt_succ_self i)) ?_
  refine propertyKey_traces fun key hkey => ?_
  have value := entryValue_traces hr hs.startsAt hlo (Nat.lt_succ_self i) hkey (Nat.le_refl i)
    (Nat.lt_succ_self i)
  refine value.bind fun value j hj lies => traces_extend hs.startsAt (by omega) ?_
  exact lies.alone (Nat.le_refl i) (Nat.le_refl j)

lemma objectPattern_traces : Traces all lo i (Lies all i) (objectPattern readers) := by
  unfold objectPattern
  refine traces_advance.bind fun brace j hj ⟨hb, _⟩ => ?_
  refine (Traces.list hj fun i _ => objectEntry_traces hr).bind fun entries m hm lie => ?_
  refine .expect rfl fun _ _ => traces_node (spanOf_token hb).startsAt (by omega) ?_
  exact lie.mono (Nat.le_refl i) (by omega)

lemma restElement_traces : Traces all lo i (Lies all i) (restElement readers) := by
  unfold restElement
  refine traces_advance.bind fun dots j hj ⟨hd, _⟩ => ?_
  refine (hr .bindingTarget j).bind fun target m hm lies => ?_
  have some := lies.lt
  refine traces_node (spanOf_token hd).startsAt (by omega) ?_
  exact lies.alone hj (Nat.le_refl m)

lemma listElement_traces : Traces all lo i (Lies all i) (listElement readers) := by
  unfold listElement
  exact .isAt rfl (fun _ => restElement_traces hr) (hr .bindingElement i)

lemma arrayPattern_traces : Traces all lo i (Lies all i) (arrayPattern readers) := by
  unfold arrayPattern
  refine traces_advance.bind fun bracket j hj ⟨hb, _⟩ => ?_
  refine (Traces.list hj fun i _ => listElement_traces hr).bind fun elements m hm lie => ?_
  refine .expect rfl fun _ _ => traces_node (spanOf_token hb).startsAt (by omega) ?_
  exact lie.mono (Nat.le_refl i) (by omega)

lemma pattern_traces : Traces all lo i (Lies all i) (pattern readers) := by
  unfold pattern
  exact .isAt rfl (fun _ => objectPattern_traces hr) (arrayPattern_traces hr)

lemma bindingTarget_traces : Traces all lo i (Lies all i) (bindingTarget readers) := by
  unfold bindingTarget
  refine .skipLook fun _ => .either (pattern_traces hr) ?_
  exact .expect rfl fun t ht => traces_pure (lies_nameOf ht)

lemma bindingElement_traces : Traces all lo i (Lies all i) (bindingElement readers) := by
  unfold bindingElement
  refine .here fun start hs => (bindingTarget_traces hr).bind fun target j hj lies => ?_
  have some := lies.lt
  refine .accept rfl ?_ (traces_pure lies)
  refine (hr .assignment (j + 1)).bind fun fallback m _ lies' => ?_
  refine traces_node hs.startsAt (by omega) (lies.cons (Nat.le_refl i) (by omega) ?_)
  exact lies'.alone (by omega) (Nat.le_refl m)

/-! ### Functions -/

lemma block_traces : Traces all lo i (Lies all i) (block readers) := by
  unfold block
  refine .here fun start hs => .expect rfl fun _ _ => ?_
  refine (Traces.statements (Nat.le_succ i) fun j _ => hr .statement j).bind fun body j hj lie => ?_
  refine .expect rfl fun _ _ => traces_node hs.startsAt (by omega) ?_
  exact lie.mono (Nat.le_refl i) (Nat.le_succ j)

lemma parameters_traces : Traces all lo i (Lies all i) (parameters readers) := by
  unfold parameters
  refine .here fun start hs => .expect rfl fun _ _ => ?_
  refine (Traces.list (Nat.le_succ i) fun j _ => listElement_traces hr).bind ?_
  intro items j hj lie
  refine .expect rfl fun _ _ => traces_node hs.startsAt (by omega) ?_
  exact lie.mono (Nat.le_refl i) (Nat.le_succ j)

/-- A name that was left out may lie at the parenthesis before the parameters. -/
lemma functionRest_traces {name : Node} (hs : StartsAt all k start) (hk : k ≤ i)
    (hn : Lies all k (i + 1) name) :
    Traces all lo i (Lies all k) (functionRest readers start flags name) := by
  unfold functionRest
  refine (parameters_traces hr).bind fun params j hj liesParams => ?_
  have some := liesParams.lt
  refine (block_traces hr).withIn.bind fun body m hm liesBody => ?_
  have more := liesBody.lt
  refine traces_extend hs (by omega) (hn.cons (Nat.le_refl k) (by omega) ?_)
  exact liesParams.cons hk hm (liesBody.alone (by omega) (Nat.le_refl m))

/-- The name of a method is left out, and its node lies where the whole starts. -/
lemma method_traces (hs : SpanOf all k start) (hk : k ≤ i) :
    Traces all lo i (Lies all k) (method readers start flags) :=
  functionRest_traces hr hs.startsAt hk ((lies_of_spanOf hs rfl).mono (Nat.le_refl k) (by omega))

omit hr in
lemma functionName_traces {isExpression : Bool} :
    Traces all lo i (fun j n => Lies all i (j + 1) n) (functionName isExpression) := by
  unfold functionName
  refine .isAt rfl (fun inside => .advance inside fun t ht => traces_pure ?_) (.either ?_ ?_)
  · exact (lies_nameOf ht).mono (Nat.le_refl i) (by omega)
  · exact .here fun span hs => traces_pure (lies_of_spanOf hs rfl)
  · exact traces_failHere

lemma function_traces {isExpression : Bool} :
    Traces all lo i (Lies all i) (function readers isExpression flags) := by
  unfold function
  refine traces_advance.bind fun keyword j hj ⟨hk, _⟩ => ?_
  refine (traces_accept rfl).skip fun _ m hm => functionName_traces.bind fun name p hp lies => ?_
  refine functionRest_traces hr (spanOf_token hk).startsAt (by omega) ?_
  exact lies.mono (by omega) (Nat.le_refl _)

lemma arrowParameters_traces : Traces all lo i (Lies all i) (arrowParameters readers) := by
  unfold arrowParameters
  refine .isAt rfl (fun inside => .advance inside fun t ht => traces_pure ?_) (parameters_traces hr)
  have span := spanOf_token ht
  refine .mk (Nat.le_refl i) (Nat.lt_succ_self i) (Nat.le_refl _) span.startsAt span.stopsAt ?_
  exact fun c hc _ => (lies_nameOf ht).alone (Nat.le_refl i) (Nat.le_refl _) c hc

lemma arrowBody_traces : Traces all lo i (Lies all i) (arrowBody readers) := by
  unfold arrowBody
  exact .isAt rfl (fun _ => (block_traces hr).withIn) (hr .assignment i)

lemma arrowFunction_traces {isAsync : Bool} :
    Traces all lo i (Lies all i) (arrowFunction readers isAsync) := by
  unfold arrowFunction
  refine .here fun start hs => (arrowParameters_traces hr).bind fun params j hj liesParams => ?_
  have some := liesParams.lt
  refine .expect rfl fun _ _ => (arrowBody_traces hr).bind fun body m hm liesBody => ?_
  have name : Lies all i (i + 1) (Node.leaf .name [] start) := lies_of_spanOf hs rfl
  refine traces_extend hs.startsAt (by omega) (name.cons (Nat.le_refl i) (by omega) ?_)
  exact liesParams.cons (Nat.le_refl i) (by omega) (liesBody.alone (by omega) (Nat.le_refl m))

/-! ### Accesses -/

lemma spread_traces : Traces all lo i (Lies all i) (spread readers) := by
  unfold spread
  refine traces_advance.bind fun dots j hj ⟨hd, _⟩ => ?_
  refine (hr .assignment j).bind fun value m hm lies => ?_
  have some := lies.lt
  refine traces_node (spanOf_token hd).startsAt (by omega) ?_
  exact lies.alone hj (Nat.le_refl m)

lemma spreadable_traces : Traces all lo i (Lies all i) (spreadable readers) := by
  unfold spreadable
  exact .isAt rfl (fun _ => spread_traces hr) (hr .assignment i)

lemma arguments_traces : Traces all lo i (EachLies all i) (arguments readers) := by
  unfold arguments
  refine traces_advance.skip fun _ j hj => ?_
  refine (Traces.list hj fun m _ => spreadable_traces hr).withIn.bind fun items m hm lie => ?_
  exact .expect rfl fun _ _ => traces_pure (lie.mono (Nat.le_refl i) (Nat.le_succ m))

omit hr in
lemma property_traces {object : Node} (ho : Lies all k i object) :
    Traces all lo i (Lies all k) (property object) := by
  unfold property
  refine .skipLook fun t => .either ?_ traces_failHere
  exact traces_advance.skip fun t j hj => traces_after ho hj rfl rfl .nil

lemma index_traces {object : Node} {m : Nat} (ho : Lies all k m object) (hm : m ≤ i) :
    Traces all lo i (Lies all k) (index readers object) := by
  unfold index
  refine (hr .expression i).withIn.bind fun e j hj lies => .expect rfl fun _ _ => ?_
  exact traces_after ho (by omega) rfl rfl (lies.alone hm (Nat.le_succ j))

lemma access_traces {allowCall : Bool} {operand : Node} (ho : Lies all k i operand) :
    Traces all lo i (fun j r => ∀ m ∈ r, Lies all k j m) (access readers allowCall operand) := by
  unfold access
  refine .accept rfl ?_ (.accept rfl ?_ (.skipLook fun _ => .either ?_ ?_))
  · have object := ho.mono (Nat.le_refl k) (Nat.le_succ i)
    exact (property_traces object).bind fun m j _ lies => traces_grown lies
  · exact (index_traces hr ho (Nat.le_succ i)).bind fun m j _ lies => traces_grown lies
  · refine (arguments_traces hr).bind fun args j hj lie => ?_
    exact Traces.bind (traces_after ho hj rfl rfl lie) fun m p _ lies => traces_grown lies
  · exact traces_ended

lemma accesses_traces {allowCall : Bool} {operand : Node} (hk : k ≤ i)
    (ho : Lies all k i operand) :
    Traces all lo i (Lies all k) (accesses readers allowCall operand) :=
  .growing hk ho fun _ _ _ lies => access_traces hr lies

/-! ### Literals -/

lemma arrayLiteral_traces : Traces all lo i (Lies all i) (arrayLiteral readers) := by
  unfold arrayLiteral
  refine traces_advance.bind fun bracket j hj ⟨hb, _⟩ => ?_
  refine (Traces.list hj fun m _ => spreadable_traces hr).allowingIn.bind ?_
  intro elements m hm lie
  refine .expect rfl fun _ _ => traces_node (spanOf_token hb).startsAt (by omega) ?_
  exact lie.mono (Nat.le_refl i) (Nat.le_succ m)

omit hr in
lemma modifiers_traces {applies : Token → Bool} :
    Traces all lo i onward (modifiers flags applies) := by
  unfold modifiers
  refine traces_acceptWord.skip fun isAsync _ _ => traces_acceptWord.skip fun isGetter _ _ => ?_
  exact traces_acceptWord.skip fun isSetter _ _ => traces_pure trivial

lemma computedProperty_traces (hs : SpanOf all k start) (hk : k < i) :
    Traces all lo i (Lies all k) (computedProperty readers start flags) := by
  unfold computedProperty
  refine (computedKey_traces hr).bind fun key j hj liesKey => .isAt rfl (fun _ => ?_) ?_
  · refine (method_traces hr hs (by omega)).bind fun value m hm lies => ?_
    refine traces_extend hs.startsAt (by omega) (liesKey.cons (by omega) hm ?_)
    exact lies.alone (Nat.le_refl k) (Nat.le_refl m)
  · refine .expect rfl fun _ _ => (hr .assignment (j + 1)).bind fun value m hm lies => ?_
    refine traces_extend hs.startsAt (by omega) (liesKey.cons (by omega) (by omega) ?_)
    exact lies.alone (by omega) (Nat.le_refl m)

lemma memberFunction_traces {key : Token} (hs : SpanOf all k start) (hk : k < i) :
    Traces all lo i (Lies all k) (memberFunction readers start flags key) := by
  unfold memberFunction
  refine (method_traces hr hs (by omega)).bind fun value j hj lies => ?_
  exact traces_extend hs.startsAt (by omega) (lies.alone (Nat.le_refl k) (Nat.le_refl j))

lemma keyedValue_traces {key : Token} {m : Nat} (hs : StartsAt all k start) (hlo : lo ≤ k)
    (hkey : all[m]? = some key) (hkm : k ≤ m) (hmi : m < i) :
    Traces all lo i (EachLies all k) (keyedValue readers start key) := by
  have keyStarts : StartsAt all m key.span := (spanOf_token hkey).startsAt
  unfold keyedValue
  refine .accept rfl ?_ (.either (traces_fail ⟨m, by omega, by omega, keyStarts⟩) ?_)
  · refine (hr .assignment (i + 1)).bind fun value j _ lies => traces_pure ?_
    exact lies.alone (by omega) (Nat.le_refl j)
  refine .accept rfl ?_ (traces_pure .nil)
  refine (hr .assignment (i + 1)).bind fun fallback j hj lies => ?_
  have children : EachLies all k j [nameOf key, fallback] :=
    (lies_nameOf hkey).cons hkm (by omega) (lies.alone (by omega) (Nat.le_refl j))
  refine Traces.bind (traces_node hs (by omega) children) fun n p _ around => ?_
  exact traces_pure (around.alone (Nat.le_refl k) (Nat.le_refl p))

lemma keyedProperty_traces : Traces all lo i (Lies all i) (keyedProperty readers) := by
  unfold keyedProperty
  refine traces_of_le fun hlo => .here fun start hs => ?_
  refine modifiers_traces.skip fun flags j hj => ?_
  refine (traces_accept rfl).skip fun isGenerator m hm => ?_
  refine .accept rfl (computedProperty_traces hr hs (by omega)) ?_
  refine propertyKey_traces fun key hkey => ?_
  refine .skipLook fun _ => .either (memberFunction_traces hr hs (by omega)) ?_
  have value := @keyedValue_traces all lo (m + 1) i readers start hr key m hs.startsAt hlo hkey
    (by omega) (Nat.lt_succ_self m)
  refine value.bind fun value p hp lie => ?_
  exact traces_extend hs.startsAt (by omega) lie

lemma objectProperty_traces : Traces all lo i (Lies all i) (objectProperty readers) := by
  unfold objectProperty
  exact .isAt rfl (fun _ => spread_traces hr) (keyedProperty_traces hr)

lemma objectLiteral_traces : Traces all lo i (Lies all i) (objectLiteral readers) := by
  unfold objectLiteral
  refine traces_advance.bind fun brace j hj ⟨hb, _⟩ => ?_
  refine (Traces.list hj fun m _ => objectProperty_traces hr).allowingIn.bind fun l m hm lie => ?_
  refine .expect rfl fun _ _ => traces_node (spanOf_token hb).startsAt (by omega) ?_
  exact lie.mono (Nat.le_refl i) (Nat.le_succ m)

/-! ### Classes -/

lemma fieldValue_traces : Traces all lo i (EachLies all i) (fieldValue readers) := by
  unfold fieldValue
  refine .accept rfl ?_ (traces_pure .nil)
  refine (hr .assignment (i + 1)).bind fun value j _ lies => traces_pure ?_
  exact lies.alone (Nat.le_succ i) (Nat.le_refl j)

lemma field_traces {name : Bytes} (hs : StartsAt all k start) (hk : k < i) :
    Traces all lo i (Lies all k) (field readers start flags name) := by
  unfold field
  refine (fieldValue_traces hr).bind fun value j hj lie => traces_semicolon.skip fun _ m hm => ?_
  exact traces_extend hs (by omega) (lie.mono (by omega) hm)

lemma unnamedMember_traces (hs : SpanOf all k start) (hk : k < i) :
    Traces all lo i (Lies all k) (unnamedMember readers start flags) := by
  unfold unnamedMember
  exact .isAt rfl (fun _ => method_traces hr hs (by omega)) (field_traces hr hs.startsAt hk)

lemma computedMember_traces (hs : SpanOf all k start) (hk : k < i) :
    Traces all lo i (Lies all k) (computedMember readers start flags) := by
  unfold computedMember
  refine (computedKey_traces hr).bind fun key j hj liesKey => ?_
  refine (unnamedMember_traces hr hs (by omega)).bind fun value m hm lies => ?_
  refine traces_extend hs.startsAt (by omega) (liesKey.cons (by omega) hm ?_)
  exact lies.alone (Nat.le_refl k) (Nat.le_refl m)

lemma namedMember_traces (hs : SpanOf all k start) (hk : k ≤ i) :
    Traces all lo i (Lies all k) (namedMember readers start flags) := by
  unfold namedMember
  refine propertyKey_traces fun key _ => .isAt rfl (fun _ => ?_) ?_
  · exact memberFunction_traces hr hs (by omega)
  · exact field_traces hr hs.startsAt (by omega)

lemma classMember_traces : Traces all lo i (Lies all i) (classMember readers) := by
  unfold classMember
  refine .skipLook fun _ => .either traces_failHere (.here fun start hs => ?_)
  refine traces_acceptWord.skip fun isStatic j hj => modifiers_traces.skip fun flags m hm => ?_
  refine (traces_accept rfl).skip fun _ p hp => ?_
  exact .accept rfl (computedMember_traces hr hs (by omega)) (namedMember_traces hr hs (by omega))

lemma memberTurn_traces (hk : k ≤ i) :
    Traces all lo i (fun j u => EachLies all k j u.items) (memberTurn readers) := by
  unfold memberTurn
  refine .skipLook fun _ => .either (traces_pure .nil) (.accept rfl (traces_pure .nil) ?_)
  refine (classMember_traces hr).bind fun m j _ lies => traces_pure ?_
  exact lies.alone hk (Nat.le_refl j)

omit hr in
lemma className_traces {isExpression : Bool} :
    Traces all lo i (fun j n => Lies all i (j + 1) n) (className isExpression) := by
  unfold className
  refine .isAt rfl (fun inside => .advance inside fun t ht => traces_pure ?_) (.either ?_ ?_)
  · exact (lies_nameOf ht).mono (Nat.le_refl i) (by omega)
  · exact .here fun span hs => traces_pure (lies_of_spanOf hs rfl)
  · exact traces_failHere

lemma heritage_traces : Traces all lo i (fun j n => Lies all i (j + 1) n) (heritage readers) := by
  unfold heritage
  refine .accept rfl ?_ (.here fun span hs => traces_pure (lies_of_spanOf hs rfl))
  refine (hr .primary (i + 1)).bind fun base j hj lies => ?_
  refine (accesses_traces hr hj lies).mono fun m n _ around => ?_
  exact around.mono (Nat.le_succ i) (Nat.le_succ m)

lemma classBody_traces : Traces all lo i (Lies all i) (classBody readers) := by
  unfold classBody
  refine .here fun start hs => .expect rfl fun _ _ => ?_
  refine (Traces.repeatedly (Nat.le_succ i) fun j hj => memberTurn_traces hr hj).bind ?_
  refine fun members j hj lie => .expect rfl fun _ _ => ?_
  exact traces_node hs.startsAt (by omega) (lie.mono (Nat.le_refl i) (Nat.le_succ j))

lemma classDefinition_traces {isExpression : Bool} :
    Traces all lo i (Lies all i) (classDefinition readers isExpression) := by
  unfold classDefinition
  refine traces_advance.bind fun keyword j hj ⟨hk, _⟩ => ?_
  refine className_traces.bind fun name m hm liesName => ?_
  refine (heritage_traces hr).bind fun base p hp liesBase => ?_
  refine (classBody_traces hr).bind fun members q hq liesMembers => ?_
  have some := liesMembers.lt
  have children : EachLies all i q [name, base, members] :=
    liesName.cons hj (by omega) <| liesBase.cons (by omega) (by omega) <|
      liesMembers.alone (by omega) (Nat.le_refl q)
  exact traces_node (spanOf_token hk).startsAt (by omega) children

/-! ### Operands -/

lemma parenthesized_traces : Traces all lo i (Lies all i) (parenthesized readers) := by
  unfold parenthesized
  refine traces_advance.skip fun _ j hj => ?_
  refine (hr .expression j).withIn.bind fun inner m hm lies => .expect rfl fun _ _ => ?_
  exact traces_pure (lies.mono hj (Nat.le_succ m))

omit hr in
lemma literal_traces {kind : NodeKind} {keepsValue : Bool} (inside : i + 1 < all.length) :
    Traces all lo i (Lies all i) (literal kind keepsValue) := by
  unfold literal
  exact .advance inside fun t ht => traces_pure (lies_of_spanOf (spanOf_token ht) rfl)

lemma asyncFunction_traces {isExpression : Bool} :
    Traces all lo i (Lies all i) (asyncFunction readers isExpression) := by
  unfold asyncFunction
  refine traces_advance.skip fun _ j hj => (function_traces hr).mono fun m n _ lies => ?_
  exact lies.mono hj (Nat.le_refl m)

lemma primary_traces : Traces all lo i (Lies all i) (primary readers) := by
  unfold primary
  refine .skipLook fun _ => .either (asyncFunction_traces hr) (.current fun t _ inside => ?_)
  split
  case h_1 kind keepsValue found =>
    refine literal_traces (inside fun eof => ?_)
    rw [eof] at found
    cases found
  case h_2 =>
    split
    case h_1 => exact parenthesized_traces hr
    case h_2 => exact arrayLiteral_traces hr
    case h_3 => exact objectLiteral_traces hr
    case h_4 => exact function_traces hr
    case h_5 => exact classDefinition_traces hr
    case h_6 => exact traces_failHere

lemma created_traces : Traces all lo i (Lies all i) (created readers) := by
  unfold created
  exact .isAt rfl (fun _ => hr .newExpression i) (primary_traces hr)

lemma createdArguments_traces : Traces all lo i (EachLies all i) (createdArguments readers) := by
  unfold createdArguments
  exact .isAt rfl (fun _ => arguments_traces hr) (traces_pure .nil)

lemma newExpression_traces : Traces all lo i (Lies all i) (newExpression readers) := by
  unfold newExpression
  refine traces_advance.bind fun keyword j hj ⟨hk, _⟩ => ?_
  refine (created_traces hr).bind fun callee m hm lies => ?_
  refine (accesses_traces hr hm lies).bind fun callee p hp lies => ?_
  have some := lies.lt
  refine (createdArguments_traces hr).bind fun args q hq lie => ?_
  refine traces_node (spanOf_token hk).startsAt (by omega) (lies.cons hj hq ?_)
  exact lie.mono (by omega) (Nat.le_refl q)

omit hr in
lemma afterOperand_traces {operand : Node} (hs : StartsAt all k start) (hlo : lo ≤ k)
    (ho : Lies all k i operand) : Traces all lo i (Lies all k) (afterOperand start operand) := by
  obtain ⟨p, hp, starts, lies⟩ := ho.exists_start
  have before := lies.lt
  unfold afterOperand
  refine .skipLook fun t => .either (.either ?_ ?_) (traces_pure ho)
  · refine traces_advance.skip fun operator j hj => traces_extend hs (by omega) ?_
    exact ho.alone (Nat.le_refl k) hj
  · exact traces_fail ⟨p, by omega, by omega, starts⟩

lemma operandBase_traces : Traces all lo i (Lies all i) (operandBase readers) := by
  unfold operandBase
  exact .isAt rfl (fun _ => newExpression_traces hr) (primary_traces hr)

lemma operand_traces : Traces all lo i (Lies all i) (operand readers) := by
  unfold operand
  refine traces_of_le fun hlo => .here fun start hs => ?_
  refine (operandBase_traces hr).bind fun base j hj lies => ?_
  refine (accesses_traces hr hj lies).bind fun operand m hm around => ?_
  exact afterOperand_traces hs.startsAt hlo around

/-! ### Operators -/

lemma unary_traces : Traces all lo i (Lies all i) (unary readers) := by
  unfold unary
  refine traces_of_le fun hlo => .skipLook fun t => .either ?_ (.either ?_ (operand_traces hr))
  · refine traces_advance.bind fun operator j hj ⟨ho, _⟩ => ?_
    refine (hr .unary j).bind fun argument m hm lies => ?_
    have some := lies.lt
    refine traces_extend (spanOf_token ho).startsAt (by omega) ?_
    exact lies.alone hj (Nat.le_refl m)
  · refine traces_advance.bind fun operator j hj ⟨ho, _⟩ => ?_
    refine (hr .unary j).bind fun argument m hm lies => ?_
    obtain ⟨p, hp, starts, behind⟩ := lies.exists_start
    have some := behind.lt
    refine .either ?_ (traces_fail ⟨p, by omega, by omega, starts⟩)
    refine traces_extend (spanOf_token ho).startsAt (by omega) ?_
    exact lies.alone hj (Nat.le_refl m)

lemma binaryTurn_traces {floor : Nat} {left : Node} (hs : StartsAt all k start)
    (hl : Lies all k i left) :
    Traces all lo i (fun j r => ∀ m ∈ r, Lies all k j m)
      (binaryTurn readers start floor left) := by
  have before := hl.lt
  unfold binaryTurn
  refine .skipLook fun tightness => .either traces_ended ?_
  refine traces_advance.skip fun operator j hj => (hr _ j).bind fun right m hm lies => ?_
  have children : EachLies all k m [left, right] :=
    hl.cons (Nat.le_refl k) (by omega) (lies.alone (by omega) (Nat.le_refl m))
  exact Traces.bind (traces_extend hs (by omega) children) fun n p _ around => traces_grown around

lemma binary_traces {floor : Nat} : Traces all lo i (Lies all i) (binary readers floor) := by
  unfold binary
  refine .here fun start hs => (unary_traces hr).bind fun left j hj lies => ?_
  exact .growing hj lies fun m p _ around => binaryTurn_traces hr hs.startsAt around

lemma conditional_traces : Traces all lo i (Lies all i) (conditional readers) := by
  unfold conditional
  refine .here fun start hs => (binary_traces hr).bind fun condition j hj lies => ?_
  have some := lies.lt
  refine .accept rfl ?_ (traces_pure lies)
  refine (hr .assignment (j + 1)).withIn.bind fun whenTrue m hm liesTrue => ?_
  refine .expect rfl fun _ _ => (hr .assignment (m + 1)).bind fun whenFalse p hp liesFalse => ?_
  refine traces_node hs.startsAt (by omega) (lies.cons (Nat.le_refl i) (by omega) ?_)
  exact liesTrue.cons (by omega) (by omega) (liesFalse.alone (by omega) (Nat.le_refl p))

lemma assignmentRest_traces {target : Node} (hs : StartsAt all k start) (hlo : lo ≤ k)
    (ht : Lies all k i target) :
    Traces all lo i (Lies all k) (assignmentRest readers start target) := by
  obtain ⟨p, hp, starts, behind⟩ := ht.exists_start
  have before := behind.lt
  unfold assignmentRest
  refine traces_advance.skip fun operator j hj => .either ?_ ?_
  · refine (hr .assignment j).bind fun value m hm lies => ?_
    have children : EachLies all k m [target, value] :=
      ht.cons (Nat.le_refl k) (by omega) (lies.alone (by omega) (Nat.le_refl m))
    exact .either (traces_node hs (by omega) children) (traces_extend hs (by omega) children)
  · exact traces_fail ⟨p, by omega, by omega, starts⟩

lemma assignment_traces : Traces all lo i (Lies all i) (assignment readers) := by
  unfold assignment
  refine traces_of_le fun hlo => .skipLook fun _ => .either (arrowFunction_traces hr) ?_
  refine .skipLook fun _ => .either ?_ (.here fun start hs => ?_)
  · refine traces_advance.skip fun _ j hj => (arrowFunction_traces hr).mono fun m n _ lies => ?_
    exact lies.mono hj (Nat.le_refl m)
  · refine (conditional_traces hr).bind fun target j _ lies => .skipLook fun _ => ?_
    exact .either (assignmentRest_traces hr hs.startsAt hlo lies) (traces_pure lies)

lemma commaTurn_traces {left : Node} (hs : StartsAt all k start) (hl : Lies all k i left) :
    Traces all lo i (fun j r => ∀ m ∈ r, Lies all k j m) (commaTurn readers start left) := by
  have before := hl.lt
  unfold commaTurn
  refine .accept rfl ?_ traces_ended
  refine (assignment_traces hr).bind fun right j hj lies => ?_
  have children : EachLies all k j [left, right] :=
    hl.cons (Nat.le_refl k) (by omega) (lies.alone (by omega) (Nat.le_refl j))
  exact Traces.bind (traces_node hs (by omega) children) fun n p _ around => traces_grown around

lemma expression_traces : Traces all lo i (Lies all i) (expression readers) := by
  unfold expression
  refine .here fun start hs => (assignment_traces hr).bind fun first j hj lies => ?_
  exact .growing hj lies fun m p _ around => commaTurn_traces hr hs.startsAt around

end ModuleLint.Grammar
