import ModuleLint.Grammar.Script
import ModuleLint.Proofs.Grammar.ExpressionTrace

/-!
Where the nodes of statements lie.

Where a part of a statement is left out, its empty node lies at the token that the statement goes on
with. Only the body of a `switch` clause without statements lies nowhere: nothing stands between its
colon and the token behind.
-/

namespace ModuleLint.Grammar

open Reader Node

variable {all : List Token} {lo i k : Nat} {readers : Readers} {start : Span}
  (hr : TraceAll all lo readers)
include hr

/-! ### Declarations -/

lemma initializer_traces : Traces all lo i (EachLies all i) (initializer readers) := by
  unfold initializer
  refine .accept rfl ?_ (traces_pure .nil)
  refine (assignment_traces hr).bind fun value j _ lies => traces_pure ?_
  exact lies.alone (Nat.le_succ i) (Nat.le_refl j)

lemma declarator_traces : Traces all lo i (Lies all i) (declarator readers) := by
  unfold declarator
  refine .here fun start hs => .skipLook fun _ => .either ?_ ?_
  · refine (pattern_traces hr).bind fun p j _ lies => ?_
    have some := lies.lt
    refine (initializer_traces hr).bind fun value m hm lie => ?_
    refine traces_node hs.startsAt (by omega) (lies.cons (Nat.le_refl i) hm ?_)
    exact lie.mono (by omega) (Nat.le_refl m)
  · refine .expect rfl fun name _ => (initializer_traces hr).bind fun value j hj lie => ?_
    exact traces_extend hs.startsAt (by omega) (lie.mono (Nat.le_succ i) (Nat.le_refl j))

lemma declaratorTurn_traces (hk : k ≤ i) :
    Traces all lo i (fun j u => EachLies all k j u.items) (declaratorTurn readers) := by
  unfold declaratorTurn
  refine (declarator_traces hr).bind fun d j _ lies => .accept rfl (traces_pure ?_) (traces_pure ?_)
  · exact lies.alone hk (Nat.le_succ j)
  · exact lies.alone hk (Nat.le_refl j)

lemma declaration_traces {kind : NodeKind} (inside : i + 1 < all.length) :
    Traces all lo i (Lies all i) (declaration readers kind) := by
  unfold declaration
  refine .advance inside fun keyword hk => ?_
  refine (Traces.repeatedly (Nat.le_succ i) fun j hj => declaratorTurn_traces hr hj).bind ?_
  refine fun declarators j hj lie => traces_node (spanOf_token hk).startsAt (by omega) ?_
  exact lie.mono (Nat.le_refl i) (Nat.le_refl j)

lemma declarationStatement_traces {kind : NodeKind} (inside : i + 1 < all.length) :
    Traces all lo i (Lies all i) (declarationStatement readers kind) := by
  unfold declarationStatement
  refine (declaration_traces hr inside).bind fun d j hj lies => ?_
  exact traces_semicolon.skip fun _ m hm => traces_stretched lies hm

/-! ### Branches and loops -/

lemma condition_traces {opening : Expectation} :
    Traces all lo i (Lies all i) (condition readers opening) := by
  unfold condition
  refine .expect rfl fun _ _ => (expression_traces hr).bind fun c j hj lies => ?_
  exact .expect rfl fun _ _ => traces_pure (lies.mono (Nat.le_succ i) (Nat.le_succ j))

lemma elseBranch_traces : Traces all lo i (EachLies all i) (elseBranch readers) := by
  unfold elseBranch
  refine .accept rfl ?_ (traces_pure .nil)
  refine (hr .statement (i + 1)).bind fun body j _ lies => traces_pure ?_
  exact lies.alone (Nat.le_succ i) (Nat.le_refl j)

lemma ifStatement_traces : Traces all lo i (Lies all i) (ifStatement readers) := by
  unfold ifStatement
  refine traces_advance.bind fun keyword j hj ⟨hk, _⟩ => ?_
  refine (condition_traces hr).bind fun c m hm liesCondition => ?_
  refine (hr .statement m).bind fun whenTrue p hp liesTrue => ?_
  have some := liesTrue.lt
  refine (elseBranch_traces hr).bind fun whenFalse q hq lie => ?_
  have children : EachLies all i q (c :: whenTrue :: whenFalse) :=
    liesCondition.cons hj (by omega) <| liesTrue.cons (by omega) hq <|
      lie.mono (by omega) (Nat.le_refl q)
  exact traces_node (spanOf_token hk).startsAt (by omega) children

lemma whileStatement_traces : Traces all lo i (Lies all i) (whileStatement readers) := by
  unfold whileStatement
  refine traces_advance.bind fun keyword j hj ⟨hk, _⟩ => ?_
  refine (condition_traces hr).bind fun c m hm liesCondition => ?_
  refine (hr .statement m).bind fun body p hp liesBody => ?_
  have some := liesBody.lt
  refine traces_node (spanOf_token hk).startsAt (by omega) (liesCondition.cons hj hp ?_)
  exact liesBody.alone (by omega) (Nat.le_refl p)

lemma doWhileStatement_traces : Traces all lo i (Lies all i) (doWhileStatement readers) := by
  unfold doWhileStatement
  refine traces_advance.bind fun keyword j hj ⟨hk, _⟩ => ?_
  refine (hr .statement j).bind fun body m hm liesBody => .expect rfl fun _ _ => ?_
  refine (condition_traces hr).bind fun c p hp liesCondition => ?_
  refine (traces_accept rfl).skip fun _ q hq => ?_
  refine traces_node (spanOf_token hk).startsAt (by omega) (liesBody.cons hj (by omega) ?_)
  exact liesCondition.alone (by omega) hq

omit hr in
/-- An absent part lies at the token that follows. -/
lemma absent_traces : Traces all lo i (fun j n => Lies all i (j + 1) n) absent := by
  unfold absent
  exact .here fun span hs => traces_pure (lies_of_spanOf hs rfl)

omit hr in
/-- A part that may be absent. -/
lemma traces_perhaps {p : Reader Node} (h : Traces all lo i (Lies all i) p) :
    Traces all lo i (fun j n => Lies all i (j + 1) n) p :=
  h.mono fun j _ _ lies => lies.mono (Nat.le_refl i) (Nat.le_succ j)

lemma forStart_traces : Traces all lo i (fun j n => Lies all i (j + 1) n) (forStart readers) := by
  unfold forStart
  refine .withIn (.current fun t _ inside => ?_)
  split
  case h_1 kind found =>
    refine traces_perhaps (declaration_traces hr (inside fun eof => ?_))
    rw [eof] at found
    cases found
  case h_2 => exact .either absent_traces (traces_perhaps (expression_traces hr))

lemma forBody_traces : Traces all lo i (Lies all i) (forBody readers) := by
  unfold forBody
  refine .expect rfl fun _ _ => (hr .statement (i + 1)).mono fun j n _ lies => ?_
  exact lies.mono (Nat.le_succ i) (Nat.le_refl j)

lemma forPart_traces {close : TokenKind} :
    Traces all lo i (fun j n => Lies all i (j + 1) n) (forPart readers close) := by
  unfold forPart
  exact .skipLook fun _ => .either absent_traces (traces_perhaps (expression_traces hr))

lemma forSubject_traces {isIn : Bool} :
    Traces all lo i (Lies all i) (forSubject readers isIn) := by
  unfold forSubject
  exact .either (expression_traces hr) (assignment_traces hr)

lemma forEach_traces {target : Node} (hs : StartsAt all k start) (hk : k ≤ i)
    (ht : Lies all k (i + 1) target) :
    Traces all lo i (Lies all k) (forEach readers start target) := by
  unfold forEach
  refine traces_advance.skip fun keyword j hj => ?_
  refine (forSubject_traces hr).bind fun subject m hm liesSubject => ?_
  have some := liesSubject.lt
  refine (forBody_traces hr).bind fun body p hp liesBody => ?_
  have more := liesBody.lt
  refine traces_node hs (by omega) (ht.cons (Nat.le_refl k) (by omega) ?_)
  exact liesSubject.cons (by omega) hp (liesBody.alone (by omega) (Nat.le_refl p))

lemma forClassic_traces {init : Node} (hs : StartsAt all k start) (hk : k ≤ i)
    (hn : Lies all k (i + 1) init) :
    Traces all lo i (Lies all k) (forClassic readers start init) := by
  unfold forClassic
  refine .expect rfl fun _ _ => (forPart_traces hr).bind fun c j hj liesCondition => ?_
  refine .expect rfl fun _ _ => (forPart_traces hr).bind fun update m hm liesUpdate => ?_
  refine (forBody_traces hr).bind fun body p hp liesBody => ?_
  have some := liesBody.lt
  have children : EachLies all k p [init, c, update, body] :=
    hn.cons (Nat.le_refl k) (by omega) <| liesCondition.cons (by omega) (by omega) <|
      liesUpdate.cons (by omega) (by omega) <| liesBody.alone (by omega) (Nat.le_refl p)
  exact traces_node hs (by omega) children

lemma forStatement_traces : Traces all lo i (Lies all i) (forStatement readers) := by
  unfold forStatement
  refine traces_advance.bind fun keyword j hj ⟨hk, _⟩ => .expect rfl fun _ _ => ?_
  refine (forStart_traces hr).bind fun init m hm lies => .skipLook fun _ => ?_
  have starts := (spanOf_token hk).startsAt
  have around : Lies all i (m + 1) init := lies.mono (by omega) (Nat.le_refl _)
  exact .either (forEach_traces hr starts (by omega) around)
    (forClassic_traces hr starts (by omega) around)

/-! ### Switch and try -/

lemma clauseLabel_traces :
    Traces all lo i (fun j r => i < j ∧ (r.1 = .caseClause ∨ r.1 = .defaultClause) ∧
      EachLies all i j r.2) (clauseLabel readers) := by
  unfold clauseLabel
  refine .accept rfl ?_ (.accept rfl (traces_pure ?_) traces_failHere)
  · refine (expression_traces hr).bind fun e j hj lies => traces_pure ⟨by omega, .inl rfl, ?_⟩
    exact lies.alone (Nat.le_succ i) (Nat.le_refl j)
  · exact ⟨Nat.lt_succ_self i, .inr rfl, .nil⟩

omit hr in
/-- The block of a clause that has statements lies where they do. -/
lemma clauseBody_traces {m : Nat} {body : List Node} (hs : StartsAt all m start)
    (lie : EachLies all m i body) :
    Traces all lo i (fun j n => j = i ∧ n.kind = .block ∧ (n.children ≠ [] → Lies all m j n))
      (node .block start body) := by
  intro _ _ s hi
  refine ⟨i, Nat.le_refl i, hi, recordsIn_refl, rfl, rfl, fun some => ?_⟩
  obtain ⟨n, hn⟩ := List.exists_mem_of_ne_nil body some
  have before := (lie n hn).lt
  have stops : StopsAt all i (start.merge s.previous.span) := ⟨_, hi.previous (by omega), rfl⟩
  exact .mk (Nat.le_refl m) before (Nat.le_refl i) hs stops fun c hc _ => lie c hc

lemma clause_traces : Traces all lo i (Lies all i) (clause readers) := by
  unfold clause
  refine .here fun start hs => (clauseLabel_traces hr).bind fun r j _ ⟨hj, hkind, lieTest⟩ => ?_
  obtain ⟨kind, test⟩ := r
  refine .expect rfl fun _ _ => .here fun bodyStart hb => ?_
  refine (Traces.statements (Nat.le_refl _) fun m _ => hr .statement m).bind fun body m hm lie => ?_
  refine (clauseBody_traces hb.startsAt lie).bind fun block p hp ⟨_, hblock, lies⟩ => ?_
  refine (traces_extended hs.startsAt (by omega) fun c hc body => ?_).mono fun _ _ _ h => h.2
  rcases List.mem_append.mp hc with hc | hc
  · exact (lieTest c hc).mono (Nat.le_refl i) (by omega)
  · rw [List.mem_singleton.mp hc] at body ⊢
    have some : block.children ≠ [] := fun none => body ⟨hkind, hblock, none⟩
    exact (lies some).mono (by omega) (Nat.le_refl p)

lemma clauseTurn_traces (hk : k ≤ i) :
    Traces all lo i (fun j u => EachLies all k j u.items) (clauseTurn readers) := by
  unfold clauseTurn
  refine .skipLook fun _ => .either (traces_pure .nil) ?_
  refine (clause_traces hr).bind fun c j _ lies => traces_pure ?_
  exact lies.alone hk (Nat.le_refl j)

lemma switchStatement_traces : Traces all lo i (Lies all i) (switchStatement readers) := by
  unfold switchStatement
  refine traces_advance.bind fun keyword j hj ⟨hk, _⟩ => .expect rfl fun _ _ => ?_
  refine (expression_traces hr).bind fun value m hm lies => .expect rfl fun _ _ => ?_
  refine .expect rfl fun _ _ => ?_
  have first : i ≤ m + 1 + 1 := by omega
  refine (Traces.repeatedly first fun q hq => clauseTurn_traces hr hq).bind ?_
  intro clauses p hp lie
  refine .expect rfl fun _ _ => traces_node (spanOf_token hk).startsAt (by omega) ?_
  exact lies.cons (by omega) (by omega) (lie.mono (Nat.le_refl i) (Nat.le_succ p))

lemma catchParameter_traces :
    Traces all lo i (fun j n => Lies all i (j + 1) n) (catchParameter readers) := by
  unfold catchParameter
  refine .accept rfl ((bindingTarget_traces hr).bind fun target j hj lies => ?_) absent_traces
  refine .expect rfl fun _ _ => traces_pure ?_
  exact lies.mono (Nat.le_succ i) (by omega)

lemma catchClause_traces : Traces all lo i (Lies all i) (catchClause readers) := by
  unfold catchClause
  refine traces_advance.bind fun keyword j hj ⟨hk, _⟩ => ?_
  refine (catchParameter_traces hr).bind fun parameter m hm liesParameter => ?_
  refine (block_traces hr).bind fun body p hp liesBody => ?_
  have some := liesBody.lt
  refine traces_node (spanOf_token hk).startsAt (by omega) (liesParameter.cons hj (by omega) ?_)
  exact liesBody.alone (by omega) (Nat.le_refl p)

lemma handler_traces {isThere : Bool} :
    Traces all lo i (fun j n => Lies all i (j + 1) n ∧ (isThere → Lies all i j n))
      (handler readers isThere) := by
  unfold handler
  refine .ite (fun _ => ?_) fun notThere => ?_
  · refine (catchClause_traces hr).mono fun j n _ lies => ⟨?_, fun _ => lies⟩
    exact lies.mono (Nat.le_refl i) (Nat.le_succ j)
  · exact absent_traces.mono fun j n _ lies => ⟨lies, fun isThere => absurd isThere notThere⟩

lemma finalizer_traces : Traces all lo i (EachLies all i) (finalizer readers) := by
  unfold finalizer
  refine .accept rfl ?_ (traces_pure .nil)
  refine (block_traces hr).bind fun body j hj lies => traces_pure ?_
  exact lies.alone (Nat.le_succ i) (Nat.le_refl j)

lemma tryStatement_traces : Traces all lo i (Lies all i) (tryStatement readers) := by
  unfold tryStatement
  refine traces_advance.bind fun keyword j hj ⟨hk, _⟩ => ?_
  refine (block_traces hr).bind fun body m hm liesBody => .skipLook fun hasHandler => ?_
  have some := liesBody.lt
  refine (handler_traces hr).bind fun handler p hp ⟨near, there⟩ => ?_
  refine (finalizer_traces hr).bind fun final q hq lie => .ite (fun either => ?_) fun _ => ?_
  · -- an absent handler lies at the `finally` that must follow
    have liesHandler : Lies all m q handler := by
      cases hasHandler with
      | true => exact (there rfl).mono (Nat.le_refl m) hq
      | false =>
        have notNil : final ≠ [] := by simpa using either
        obtain ⟨n, hn⟩ := List.exists_mem_of_ne_nil final notNil
        have more := (lie n hn).lt
        exact near.mono (Nat.le_refl m) more
    have children : EachLies all i q (body :: handler :: final) :=
      liesBody.cons hj (by omega) <| liesHandler.cons (by omega) (Nat.le_refl q) <|
        lie.mono (by omega) (Nat.le_refl q)
    exact traces_node (spanOf_token hk).startsAt (by omega) children
  · exact traces_failHere

/-! ### Jumps -/

lemma returnValue_traces : Traces all lo i (EachLies all i) (returnValue readers) := by
  unfold returnValue
  refine .skipLook fun _ => .either (traces_pure .nil) ?_
  refine (expression_traces hr).bind fun value j _ lies => traces_pure ?_
  exact lies.alone (Nat.le_refl i) (Nat.le_refl j)

lemma returnStatement_traces (inside : i + 1 < all.length) :
    Traces all lo i (Lies all i) (returnStatement readers) := by
  unfold returnStatement
  refine .advance inside fun keyword hk => (returnValue_traces hr).bind fun value j hj lie => ?_
  refine traces_semicolon.skip fun _ m hm => ?_
  refine traces_node (spanOf_token hk).startsAt (by omega) ?_
  exact lie.mono (Nat.le_succ i) hm

lemma throwStatement_traces : Traces all lo i (Lies all i) (throwStatement readers) := by
  unfold throwStatement
  refine traces_advance.bind fun keyword j hj ⟨hk, _⟩ => ?_
  refine .skipLook fun _ => .either traces_failHere ?_
  refine (expression_traces hr).bind fun value m hm lies => traces_semicolon.skip fun _ p hp => ?_
  have some := lies.lt
  refine traces_node (spanOf_token hk).startsAt (by omega) ?_
  exact lies.alone hj hp

omit hr in
lemma jumpLabel_traces : Traces all lo i onward jumpLabel := by
  unfold jumpLabel
  refine .skipLook fun t => .either ?_ (traces_pure trivial)
  exact traces_advance.skip fun label _ _ => traces_pure trivial

omit hr in
lemma jump_traces {kind : NodeKind} (inside : i + 1 < all.length) :
    Traces all lo i (Lies all i) (jump kind) := by
  unfold jump
  refine .advance inside fun keyword hk => jumpLabel_traces.skip fun label j hj => ?_
  refine traces_semicolon.skip fun _ m hm => ?_
  exact traces_extend (spanOf_token hk).startsAt (by omega) .nil

/-! ### All statements -/

lemma labeled_traces : Traces all lo i (Lies all i) (labeled readers) := by
  unfold labeled
  refine traces_advance.bind fun label j hj ⟨hl, _⟩ => traces_advance.skip fun _ m hm => ?_
  refine (hr .statement m).bind fun body p hp lies => ?_
  have some := lies.lt
  refine traces_extend (spanOf_token hl).startsAt (by omega) ?_
  exact lies.alone (by omega) (Nat.le_refl p)

lemma expressionStatement_traces :
    Traces all lo i (Lies all i) (expressionStatement readers) := by
  unfold expressionStatement
  refine .here fun start hs => (expression_traces hr).bind fun e j hj lies => ?_
  have some := lies.lt
  refine traces_semicolon.skip fun _ m hm => traces_node hs.startsAt (by omega) ?_
  exact lies.alone (Nat.le_refl i) hm

omit hr in
lemma emptyStatement_traces (inside : i + 1 < all.length) :
    Traces all lo i (Lies all i) emptyStatement := by
  unfold emptyStatement
  exact .advance inside fun t ht => traces_pure (lies_of_spanOf (spanOf_token ht) rfl)

lemma wordStatement_traces : Traces all lo i (Lies all i) (wordStatement readers) := by
  unfold wordStatement
  refine .skipLook fun _ => .either (labeled_traces hr) (.skipLook fun _ => ?_)
  exact .either (asyncFunction_traces hr) (expressionStatement_traces hr)

lemma statement_traces : Traces all lo i (Lies all i) (statement readers) := by
  unfold statement
  refine .current fun t _ inside => ?_
  have notEnd (kind : TokenKind) (ht : t.kind = kind) (hk : (kind == .eof) = false) :
      i + 1 < all.length := inside (by rw [ht]; exact ne_of_beq_false hk)
  split
  case h_1 => exact block_traces hr
  case h_2 ht | h_3 ht | h_4 ht => exact declarationStatement_traces hr (notEnd _ ht rfl)
  case h_5 => exact function_traces hr
  case h_6 => exact classDefinition_traces hr
  case h_7 => exact ifStatement_traces hr
  case h_8 => exact whileStatement_traces hr
  case h_9 => exact doWhileStatement_traces hr
  case h_10 => exact forStatement_traces hr
  case h_11 => exact switchStatement_traces hr
  case h_12 => exact tryStatement_traces hr
  case h_13 ht => exact returnStatement_traces hr (notEnd _ ht rfl)
  case h_14 => exact throwStatement_traces hr
  case h_15 ht | h_16 ht => exact jump_traces (notEnd _ ht rfl)
  case h_17 ht => exact emptyStatement_traces (notEnd _ ht rfl)
  case h_18 => exact wordStatement_traces hr
  case h_19 => exact expressionStatement_traces hr

/-! ### All nonterminals -/

lemma production_traces : TraceAll all lo (production readers) := by
  intro nt i
  cases nt with
  | primary => exact primary_traces hr
  | newExpression => exact newExpression_traces hr
  | unary => exact unary_traces hr
  | binary level => exact binary_traces hr
  | assignment => exact assignment_traces hr
  | expression => exact expression_traces hr
  | bindingTarget => exact bindingTarget_traces hr
  | bindingElement => exact bindingElement_traces hr
  | statement => exact statement_traces hr

omit hr

/-- Every nonterminal is read where its node lies, and its faults start. -/
theorem read_traces (all : List Token) (lo depth : Nat) : TraceAll all lo (read depth) := by
  induction depth with
  | zero => exact fun _ _ => traces_stuck
  | succ depth ih => exact production_traces ih

end ModuleLint.Grammar
