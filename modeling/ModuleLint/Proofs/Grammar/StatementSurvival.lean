import ModuleLint.Grammar.Script
import ModuleLint.Proofs.Grammar.ExpressionSurvival

/-!
Statements survive an edit.

A statement starts before a token that is left alone, and anything may follow it. The recursion of
the grammar closes over the lemmas of its readers; edited tokens are read to no less a depth.
-/

namespace ModuleLint.Grammar

open Reader

variable {E : Edit} {readers readers' : Readers} {n : Nat} {k : Stand}
  {place : ReaderState → Prop}

lemma absent_survives (hk : (k != .done) = true) : Endures E k k n absent absent := by
  unfold absent
  exact .here hk fun span => survives_pure rfl

lemma jumpLabel_survives : Survives E anywhere .loose .loose n n id jumpLabel jumpLabel := by
  unfold jumpLabel current
  refine .split (.test false nofun (fun h _ => by rw [h]; rfl) (fun _ s semi => ?_) ?_ ?_)
  · rw [semi]
    rfl
  · refine .current rfl fun t => ?_
    refine (advance_survives_ordinary (m := .loose) (fun s here => ?_) rfl).bind fun t =>
      survives_pure rfl
    rw [(of_decide_eq_true here.1.2).1]
    rfl
  · change Survives E _ _ _ _ _ _ (pure []) (pure [])
    exact survives_pure rfl

lemma jump_survives (kind : NodeKind) (h : ∀ s, place s → s.current.kind.isOrdinary = true) :
    Survives E place .fresh .done n n (·.respan E.spans) (jump kind) (jump kind) := by
  unfold jump
  refine (advance_survives_ordinary (m := .loose) h rfl).bind fun keyword => ?_
  refine jumpLabel_survives.bind fun label => semicolon_survives.bind fun _ => ?_
  exact extended_mk_survives rfl kind label keyword.span _ []

lemma emptyStatement_survives :
    Survives E (·.current.kind = .semi) .fresh .done n n (·.respan E.spans) emptyStatement
      emptyStatement := by
  unfold emptyStatement
  exact (advance_survives_at rfl rfl).bind fun t => survives_pure rfl

variable (hr : SurviveAll E readers readers')
include hr

/-! ### Declarations -/

lemma initializer_survives :
    Survives E anywhere .loose .loose n n (List.map (·.respan E.spans)) (initializer readers)
      (initializer readers') := by
  unfold initializer
  refine .accept (m := .amid) rfl rfl rfl ?_ (survives_pure rfl)
  exact ((assignment_survives hr).from rfl).bind fun value => survives_pure rfl

lemma declarator_survives :
    Endures E .fresh .loose n (declarator readers) (declarator readers') := by
  unfold declarator
  refine .here rfl fun start => .isAtAny rfl ?_ ?_
  · refine ((pattern_survives hr).within fun _ here => here.2).bind fun p => ?_
    refine (initializer_survives hr).bind fun value => ?_
    exact node_survives rfl _ start (p :: value)
  · refine (expect_survives (m := .loose) rfl rfl rfl).bind fun name => ?_
    refine (initializer_survives hr).bind fun value => ?_
    exact extended_mk_survives rfl _ name.value start _ value

lemma declaratorTurn_survives :
    Survives E anywhere .loose .loose n n (Turn.respan E.spans) (declaratorTurn readers)
      (declaratorTurn readers') := by
  unfold declaratorTurn
  refine ((declarator_survives hr).from rfl).bind fun d => ?_
  exact .accept rfl rfl rfl (survives_pure rfl) (survives_pure rfl)

lemma declaration_survives (kind : NodeKind)
    (h : ∀ s, place s → s.current.kind.isOrdinary = true) :
    Survives E place .fresh .loose n n (·.respan E.spans) (declaration readers kind)
      (declaration readers' kind) := by
  unfold declaration
  refine (advance_survives_ordinary (m := .loose) h rfl).bind fun keyword => ?_
  refine (declaratorTurn_survives hr).repeatedly.bind fun declarators => ?_
  exact node_survives rfl kind keyword.span declarators

lemma declarationStatement_survives (kind : NodeKind)
    (h : ∀ s, place s → s.current.kind.isOrdinary = true) :
    Survives E place .fresh .done n n (·.respan E.spans) (declarationStatement readers kind)
      (declarationStatement readers' kind) := by
  unfold declarationStatement
  refine (declaration_survives hr kind h).bind fun d => semicolon_survives.bind fun _ => ?_
  exact extended_survives rfl d

/-! ### Branches and loops -/

lemma condition_survives (opening : Expectation) :
    Endures E .amid .loose n (condition readers opening) (condition readers' opening) := by
  unfold condition
  refine (expect_survives (m := .amid) rfl rfl rfl).bind fun _ => ?_
  refine ((expression_survives hr).from rfl).bind fun c => ?_
  exact (expect_survives rfl rfl rfl).bind fun _ => survives_pure rfl

lemma elseBranch_survives :
    Survives E anywhere .done .done n n (List.map (·.respan E.spans)) (elseBranch readers)
      (elseBranch readers') := by
  unfold elseBranch
  exact .acceptElse ((hr .statement _).bind fun n => survives_pure rfl) (survives_pure rfl)

lemma ifStatement_survives :
    Survives E (·.current.kind = .kwIf) .fresh .done n n (·.respan E.spans) (ifStatement readers)
      (ifStatement readers') := by
  unfold ifStatement
  refine (advance_survives_at (m := .amid) rfl rfl).bind fun keyword => ?_
  refine (condition_survives hr _).bind fun c => ?_
  refine ((hr .statement _).from rfl).bind fun whenTrue => ?_
  refine (elseBranch_survives hr).bind fun whenFalse => ?_
  exact node_survives rfl _ keyword.span (c :: whenTrue :: whenFalse)

lemma whileStatement_survives :
    Survives E (·.current.kind = .kwWhile) .fresh .done n n (·.respan E.spans)
      (whileStatement readers) (whileStatement readers') := by
  unfold whileStatement
  refine (advance_survives_at (m := .amid) rfl rfl).bind fun keyword => ?_
  refine (condition_survives hr _).bind fun c => ?_
  exact ((hr .statement _).from rfl).bind fun body => node_survives rfl _ keyword.span [c, body]

lemma doWhileStatement_survives :
    Survives E (·.current.kind = .kwDo) .fresh .done n n (·.respan E.spans)
      (doWhileStatement readers) (doWhileStatement readers') := by
  unfold doWhileStatement
  refine (advance_survives_at (m := .fresh) rfl rfl).bind fun keyword => ?_
  refine ((hr .statement _).upTo (m := .inside) rfl).bind fun body => ?_
  refine (expect_survives (m := .amid) rfl rfl rfl).bind fun _ => ?_
  refine (condition_survives hr _).bind fun c => accept_semi_survives.bind fun _ => ?_
  exact node_survives rfl _ keyword.span [body, c]

omit hr in
lemma isOrdinary_of_declaration {kind : TokenKind} {x : NodeKind}
    (h : declarationKind? kind = some x) : kind.isOrdinary = true := by
  cases kind <;> first | rfl | cases h

lemma forStart_survives : Endures E .amid .amid n (forStart readers) (forStart readers') := by
  unfold forStart
  refine Survives.withIn (.current rfl fun t => ?_) false
  rw [show (t.respan E.spans).kind = t.kind from rfl]
  split
  case h_1 kind found =>
    refine (declaration_survives hr kind fun s here => ?_).between rfl rfl
    exact here.2 ▸ isOrdinary_of_declaration found
  case h_2 =>
    refine .ite (fun _ => (absent_survives rfl).wherever) fun _ => ?_
    exact ((expression_survives hr).from rfl).upTo rfl

lemma forBody_survives :
    Survives E anywhere .amid .done (n + 1) n (·.respan E.spans) (forBody readers)
      (forBody readers') := by
  unfold forBody
  exact (expect_survives (m := .fresh) rfl rfl rfl).bind fun _ => hr .statement _

lemma forPart_survives (close : TokenKind) :
    Endures E .amid .amid n (forPart readers close) (forPart readers' close) := by
  unfold forPart
  refine .isAt rfl (absent_survives rfl).wherever ?_
  exact ((expression_survives hr).from rfl).upTo rfl

lemma forSubject_survives (isIn : Bool) :
    Endures E .fresh .loose n (forSubject readers isIn) (forSubject readers' isIn) :=
  .ite (fun _ => expression_survives hr) fun _ => assignment_survives hr

lemma forEach_survives (start : Span) (target : Node)
    (h : ∀ s, place s → s.current.kind.isOrdinary = true) :
    Survives E place .amid .done (n + 1) n (·.respan E.spans) (forEach readers start target)
      (forEach readers' (E.spans.span start) (target.respan E.spans)) := by
  unfold forEach
  refine (advance_survives_ordinary (m := .amid) h rfl).bind fun keyword => ?_
  refine (((forSubject_survives hr _).from rfl).upTo (m := .amid) rfl).bind fun subject => ?_
  refine (forBody_survives hr).bind fun body => ?_
  exact node_survives rfl _ start [target, subject, body]

lemma forClassic_survives (start : Span) (init : Node) :
    Survives E anywhere .amid .done (n + 1) n (·.respan E.spans) (forClassic readers start init)
      (forClassic readers' (E.spans.span start) (init.respan E.spans)) := by
  unfold forClassic
  refine (expect_survives (m := .amid) rfl rfl rfl).bind fun _ => ?_
  refine (forPart_survives hr _).bind fun c => ?_
  refine (expect_survives (m := .amid) rfl rfl rfl).bind fun _ => ?_
  refine (forPart_survives hr _).bind fun update => ?_
  refine (forBody_survives hr).bind fun body => ?_
  exact node_survives rfl _ start [init, c, update, body]

lemma forStatement_survives :
    Survives E (·.current.kind = .kwFor) .fresh .done n n (·.respan E.spans)
      (forStatement readers) (forStatement readers') := by
  unfold forStatement
  refine (advance_survives_at (m := .amid) rfl rfl).bind fun keyword => ?_
  refine (expect_survives (m := .amid) rfl rfl rfl).bind fun _ => ?_
  refine (forStart_survives hr).bind fun init => ?_
  refine .same rfl (fun h _ => by rw [h]; rfl) fun b => .ite (fun found => ?_) fun _ => ?_
  · refine forEach_survives hr keyword.span init fun s here => ?_
    have head := here.2.trans found
    simp only [Bool.or_eq_true, beq_iff_eq] at head
    obtain kind | word := head
    · rw [kind]
      rfl
    · rw [kind_of_isWord word]
      rfl
  · exact (forClassic_survives hr keyword.span init).wherever

/-! ### Switch and try -/

lemma clauseLabel_survives :
    Survives E anywhere .inside .loose n n (Prod.map id (List.map (·.respan E.spans)))
      (clauseLabel readers) (clauseLabel readers') := by
  unfold clauseLabel
  refine .accept (m := .amid) rfl rfl rfl ?_ ?_
  · exact ((expression_survives hr).from rfl).bind fun test => survives_pure rfl
  · exact .accept rfl rfl rfl (survives_pure rfl) survives_failHere

lemma clause_survives : Endures E .inside .inside n (clause readers) (clause readers') := by
  unfold clause
  refine .here rfl fun start => (clauseLabel_survives hr).bind fun ⟨kind, test⟩ => ?_
  refine (expect_survives (m := .inside) rfl rfl rfl).bind fun _ => .here rfl fun bodyStart => ?_
  refine (statements_survives (.inl rfl) (hr .statement _) _).wherever.bind fun body => ?_
  refine (node_survives rfl _ bodyStart body).bind fun block => ?_
  have whole : Endures E .inside .inside n (node kind start (test ++ [block])) _ :=
    node_survives rfl kind start (test ++ [block])
  rw [List.map_append] at whole
  exact whole

lemma clauseTurn_survives :
    Survives E anywhere .inside .inside n n (Turn.respan E.spans) (clauseTurn readers)
      (clauseTurn readers') := by
  unfold clauseTurn
  refine .isAtAny rfl (survives_pure rfl) ?_
  exact (clause_survives hr).bind fun n => survives_pure rfl

lemma switchStatement_survives :
    Survives E (·.current.kind = .kwSwitch) .fresh .loose n n (·.respan E.spans)
      (switchStatement readers) (switchStatement readers') := by
  unfold switchStatement
  refine (advance_survives_at (m := .amid) rfl rfl).bind fun keyword => ?_
  refine (expect_survives (m := .amid) rfl rfl rfl).bind fun _ => ?_
  refine ((expression_survives hr).from rfl).bind fun value => ?_
  refine (expect_survives (m := .amid) rfl rfl rfl).bind fun _ => ?_
  refine (expect_survives (m := .inside) rfl rfl rfl).bind fun _ => ?_
  refine (clauseTurn_survives hr).repeatedly.bind fun clauses => ?_
  exact (expect_survives rfl rfl rfl).bind fun _ =>
    node_survives rfl _ keyword.span (value :: clauses)

lemma catchParameter_survives :
    Endures E .amid .amid n (catchParameter readers) (catchParameter readers') := by
  unfold catchParameter
  refine .accept (m := .amid) rfl rfl rfl ?_ (absent_survives rfl).wherever
  refine ((bindingTarget_survives hr).from rfl).bind fun target => ?_
  exact (expect_survives rfl rfl rfl).bind fun _ => survives_pure rfl

lemma catchClause_survives :
    Survives E (·.current.kind = .kwCatch) .amid .loose n n (·.respan E.spans)
      (catchClause readers) (catchClause readers') := by
  unfold catchClause
  refine (advance_survives_at (m := .amid) rfl rfl).bind fun keyword => ?_
  refine (catchParameter_survives hr).bind fun p => ?_
  exact ((block_survives hr).from rfl).bind fun body => node_survives rfl _ keyword.span [p, body]

lemma finalizer_survives :
    Survives E anywhere .loose .loose n n (List.map (·.respan E.spans)) (finalizer readers)
      (finalizer readers') := by
  unfold finalizer
  refine .accept (m := .amid) rfl rfl rfl ?_ (survives_pure rfl)
  exact ((block_survives hr).from rfl).bind fun body => survives_pure rfl

lemma tryStatement_survives :
    Survives E (·.current.kind = .kwTry) .fresh .loose n n (·.respan E.spans)
      (tryStatement readers) (tryStatement readers') := by
  unfold tryStatement
  refine (advance_survives_at (m := .amid) rfl rfl).bind fun keyword => ?_
  refine ((block_survives hr).from rfl).bind fun body => ?_
  have rest (hasHandler : Bool) (handler : Node) :
      Endures E .loose .loose n
        (finalizer readers >>= fun final =>
          if hasHandler || !final.isEmpty then node .tryStmt keyword.span (body :: handler :: final)
          else failHere (.expected .handler))
        (finalizer readers' >>= fun final =>
          if hasHandler || !final.isEmpty then node .tryStmt (E.spans.span keyword.span)
            (body.respan E.spans :: handler.respan E.spans :: final)
          else failHere (.expected .handler)) := by
    refine (finalizer_survives hr).bind fun final => ?_
    rw [List.isEmpty_map]
    refine .ite (fun _ => ?_) fun _ => survives_failHere
    exact node_survives rfl _ keyword.span (body :: handler :: final)
  refine .test false nofun (fun h _ => by rw [h]; rfl) (fun _ s semi => by rw [semi]; rfl) ?_ ?_
  · change Survives E _ _ _ _ _ _ (catchClause readers >>= _) (catchClause readers' >>= _)
    refine ((catchClause_survives hr).within fun s here => ?_).bind fun handler => rest true handler
    exact beq_iff_eq.mp here.2
  · exact (absent_survives rfl).wherever.bind fun handler => rest false handler

/-! ### Jumps and all statements -/

lemma returnValue_survives :
    Survives E anywhere .loose .loose n n (List.map (·.respan E.spans)) (returnValue readers)
      (returnValue readers') := by
  unfold returnValue
  refine .test true nofun (fun h _ => by rw [h]; rfl) (fun _ s semi => ?_) ?_ (survives_pure rfl)
  · rw [endsStatement, semi]
    rfl
  · exact ((expression_survives hr).from rfl).bind fun value => survives_pure rfl

lemma returnStatement_survives :
    Survives E (·.current.kind = .kwReturn) .fresh .done n n (·.respan E.spans)
      (returnStatement readers) (returnStatement readers') := by
  unfold returnStatement
  refine (advance_survives_at (m := .loose) rfl rfl).bind fun keyword => ?_
  refine (returnValue_survives hr).bind fun value => semicolon_survives.bind fun _ => ?_
  exact node_survives rfl _ keyword.span value

lemma throwStatement_survives :
    Survives E (·.current.kind = .kwThrow) .fresh .done n n (·.respan E.spans)
      (throwStatement readers) (throwStatement readers') := by
  unfold throwStatement
  refine (advance_survives_at (m := .amid) rfl rfl).bind fun keyword => ?_
  refine .same rfl (fun h _ => by rw [h]; rfl) fun b => .ite (fun _ => survives_failHere) ?_
  intro _
  refine ((expression_survives hr).from rfl).bind fun value => semicolon_survives.bind fun _ => ?_
  exact node_survives rfl _ keyword.span [value]

lemma labeled_survives :
    Survives E (fun s => s.current.kind = .identifier ∧ (nextToken s).kind = .colon) .fresh .done
      n n (·.respan E.spans) (labeled readers) (labeled readers') := by
  have colon : Survives E (·.current.kind = .colon) .loose .fresh n n (·.respan E.spans) advance
      advance := advance_survives_at rfl rfl
  unfold labeled
  refine (advance_survives_ordinary (m := .loose) (fun s here => ?_) rfl).andThen
    (fun {s t u} here run => ?_) fun label => colon.bind fun _ => ?_
  · rw [here.1]
    rfl
  · cases run
    rw [step_current (by rw [here.1]; decide)]
    exact here.2
  · refine (hr .statement _).bind fun body => ?_
    exact extended_mk_survives rfl _ label.value label.span _ [body]

lemma expressionStatement_survives :
    Endures E .fresh .done n (expressionStatement readers) (expressionStatement readers') := by
  unfold expressionStatement
  refine .here rfl fun start => (expression_survives hr).bind fun e => ?_
  exact semicolon_survives.bind fun _ => node_survives rfl _ start [e]

lemma wordStatement_survives :
    Survives E (·.current.kind = .identifier) .fresh .done n n (·.respan E.spans)
      (wordStatement readers) (wordStatement readers') := by
  unfold wordStatement
  refine .told (fun {c s s'} here related known margin => ?_) ?_ ?_
  · have noSemi : s.current.kind ≠ .semi := by
      rw [here]
      decide
    obtain ⟨next, -⟩ | ⟨semi, -, omission⟩ := related.next known margin rfl noSemi
    · rw [next]
      rfl
    · rw [semi, beq_false_of_ne omission.noColon]
      rfl
  · exact (labeled_survives hr).within fun s here => ⟨here.1, beq_iff_eq.mp here.2⟩
  refine .told (fun {c s s'} _ related known margin => (isAsync_related related known margin rfl).1)
    ?_ (expressionStatement_survives hr).wherever
  exact ((asyncFunction_survives hr false).within fun s here => here.2).upTo rfl

lemma statement_survives : Endures E .fresh .done n (statement readers) (statement readers') := by
  unfold statement
  refine .current rfl fun t => ?_
  rw [show (t.respan E.spans).kind = t.kind from rfl]
  split
  case h_1 => exact ((block_survives hr).upTo rfl).wherever
  case h_2 kind | h_3 kind | h_4 kind =>
    exact declarationStatement_survives hr _ fun s here => by rw [here.2, kind]; rfl
  case h_5 kind =>
    exact ((function_survives hr false {}).upTo rfl).within fun s here => here.2 ▸ kind
  case h_6 kind =>
    exact ((classDefinition_survives hr false).upTo rfl).within fun s here => here.2 ▸ kind
  case h_7 kind => exact (ifStatement_survives hr).within fun s here => here.2 ▸ kind
  case h_8 kind => exact (whileStatement_survives hr).within fun s here => here.2 ▸ kind
  case h_9 kind => exact (doWhileStatement_survives hr).within fun s here => here.2 ▸ kind
  case h_10 kind => exact (forStatement_survives hr).within fun s here => here.2 ▸ kind
  case h_11 kind =>
    exact ((switchStatement_survives hr).upTo rfl).within fun s here => here.2 ▸ kind
  case h_12 kind =>
    exact ((tryStatement_survives hr).upTo rfl).within fun s here => here.2 ▸ kind
  case h_13 kind => exact (returnStatement_survives hr).within fun s here => here.2 ▸ kind
  case h_14 kind => exact (throwStatement_survives hr).within fun s here => here.2 ▸ kind
  case h_15 kind => exact jump_survives .breakStmt fun s here => by rw [here.2, kind]; rfl
  case h_16 kind => exact jump_survives .continueStmt fun s here => by rw [here.2, kind]; rfl
  case h_17 kind => exact emptyStatement_survives.within fun s here => here.2 ▸ kind
  case h_18 kind => exact (wordStatement_survives hr).within fun s here => here.2 ▸ kind
  case h_19 => exact (expressionStatement_survives hr).wherever

/-! ### The recursion -/

lemma production_survives : SurviveAll E (production readers) (production readers') := by
  intro nt n
  cases nt with
  | primary => exact primary_survives hr
  | newExpression => exact newExpression_survives hr
  | unary => exact unary_survives hr
  | binary level => exact binary_survives hr level
  | assignment => exact assignment_survives hr
  | expression => exact expression_survives hr
  | bindingTarget => exact bindingTarget_survives hr
  | bindingElement => exact bindingElement_survives hr
  | statement => exact statement_survives hr

omit hr in
/-- **All nonterminals survive** an edit, read to a depth and to a greater one. -/
theorem read_survives (E : Edit) {depth depth' : Nat} (h : depth ≤ depth') :
    SurviveAll E (read depth) (read depth') := by
  induction depth generalizing depth' with
  | zero => exact fun _ _ _ _ _ _ run => nomatch run
  | succ depth ih =>
    obtain ⟨depth', rfl⟩ : ∃ d, depth' = d + 1 := ⟨_, (Nat.succ_pred_eq_of_pos (by omega)).symm⟩
    exact production_survives (ih (by omega))

/-! ### Scripts -/

omit hr

section Scripts

variable {statement : Reader Node} {s t : ReaderState} {items : List Node}

/-- A turn at a script's statements is the last at the end, or else reads one. -/
lemma statementTurn_eq_ok {u : Turn} (run : statementTurn statement [] s = .ok u t) :
    (s.current.kind = .eof ∧ u = .last [] ∧ t = s) ∨
      (s.current.kind ≠ .eof ∧
        ∃ items, u = .more items ∧ recovering statement s = .ok items t) := by
  by_cases atEnd : s.current.kind = .eof
  · rw [statementTurn_atEnd atEnd] at run
    cases run
    exact .inl ⟨atEnd, rfl, rfl⟩
  · obtain ⟨b, v, first, second⟩ := bind_eq_ok run
    cases first
    rw [if_neg (by simpa using atEnd)] at second
    obtain ⟨items, v, first, second⟩ := bind_eq_ok second
    cases second
    exact .inr ⟨atEnd, items, rfl, first⟩

lemma atEnd_of_statements (run : statements statement [] s = .ok items t) :
    t.current.kind = .eof := by
  have atMost : ∀ bound s items, repeatedAtMost (statementTurn statement []) bound s = .ok items t →
      t.current.kind = .eof := by
    intro bound
    induction bound with
    | zero => exact fun _ _ run => nomatch run
    | succ bound ih =>
      intro s items run
      obtain ⟨u, v, first, second⟩ := bind_eq_ok run
      obtain ⟨atEnd, rfl, rfl⟩ | ⟨-, more, rfl, -⟩ := statementTurn_eq_ok first
      · cases second
        exact atEnd
      · obtain ⟨rest, w, first, second⟩ := bind_eq_ok second
        cases second
        exact ih v rest first
  exact atMost _ s items run

variable {name : Bytes} {first : Token} {rest tokens : List Token} {m : Node}

lemma script_eq_ok (h : script name tokens = .ok m) : ∃ first rest body t, tokens = first :: rest ∧
    statements (read (rest.length + 2) .statement) [] (start first rest) = .ok body t ∧
    t.faults = [] ∧ m = ⟨.script, name, first.span.merge t.current.span, {}, body⟩ := by
  cases tokens with
  | nil => cases h
  | cons first rest =>
    rw [script] at h
    split at h
    case h_1 m t whole =>
      obtain ⟨span, u, here, more⟩ := bind_eq_ok whole
      cases here
      obtain ⟨body, u, run, last⟩ := bind_eq_ok more
      obtain ⟨span, v, here, last⟩ := bind_eq_ok last
      cases here
      cases last
      split at h
      case isTrue none =>
        cases h
        exact ⟨first, rest, body, t, rfl, run, List.isEmpty_iff.mp none, rfl⟩
      case isFalse => cases h
    all_goals cases h

lemma scriptReader_of_statements {depth : Nat} (run : statements (read depth .statement) [] s =
    .ok items t) : scriptReader depth name s =
      .ok ⟨.script, name, s.current.span.merge t.current.span, {}, items⟩ t :=
  bind_of_ok run

lemma script_of_statements
    (run : statements (read (rest.length + 2) .statement) [] (start first rest) = .ok items t)
    (faults : t.faults = []) : script name (first :: rest) =
      .ok ⟨.script, name, first.span.merge t.current.span, {}, items⟩ := by
  rw [script, scriptReader_of_statements run]
  change (if t.faults.isEmpty then _ else _) = _
  rw [faults]
  rfl

end Scripts

end ModuleLint.Grammar
