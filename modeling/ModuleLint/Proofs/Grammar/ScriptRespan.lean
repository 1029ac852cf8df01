import ModuleLint.Grammar.Script
import ModuleLint.Proofs.Grammar.ExpressionRespan

/-!
Changes of spans in statements and scripts.

The recursion of the grammar closes over the lemmas of its readers. So tokens with changed spans
form the same script with its spans changed; in particular, a script lies in one file if its tokens
do.
-/

namespace ModuleLint.Grammar

open Reader

variable {φ : Respan} {readers : Readers}

lemma absent_carries : Carries φ absent absent := by
  unfold absent
  exact (here_respans φ).bind fun span => carries_pure (Node.of .empty span [])

lemma jumpLabel_ignores : Ignores φ jumpLabel := by
  unfold jumpLabel
  refine (current_respans φ).bind fun t => .ite ?_ (ignores_pure [])
  exact (advance_respans φ).bind fun t => ignores_pure t.value

lemma jump_carries (kind : NodeKind) : Carries φ (jump kind) (jump kind) := by
  unfold jump
  refine (advance_respans φ).bind fun keyword => jumpLabel_ignores.bind fun label => ?_
  exact (semicolon_ignores φ).bind fun _ => extended_mk φ kind label keyword.span _ []

lemma emptyStatement_carries : Carries φ emptyStatement emptyStatement := by
  unfold emptyStatement
  exact (advance_respans φ).bind fun t => carries_pure (Node.of .empty t.span [])

variable (hr : CarryAll φ readers)
include hr

/-! ### Declarations -/

lemma initializer_respans :
    Respans φ (List.map (·.respan φ)) (initializer readers) (initializer readers) := by
  unfold initializer
  refine (accept_ignores φ _).bind fun _ => .ite ?_ (respans_pure rfl)
  exact (assignment_carries hr).bind fun value => respans_pure rfl

lemma declarator_carries : Carries φ (declarator readers) (declarator readers) := by
  unfold declarator
  refine (here_respans φ).bind fun start => (isAtAny_ignores φ _).bind fun _ => .ite ?_ ?_
  · refine (pattern_carries hr).bind fun p => (initializer_respans hr).bind fun value => ?_
    exact node_carries φ _ start (p :: value)
  · refine (expect_respans φ _ _).bind fun name => (initializer_respans hr).bind fun value => ?_
    exact extended_mk φ _ name.value start _ value

lemma declaratorTurn_respans :
    Respans φ (Turn.respan φ) (declaratorTurn readers) (declaratorTurn readers) := by
  unfold declaratorTurn
  refine (declarator_carries hr).bind fun d => (accept_ignores φ _).bind fun _ => ?_
  exact .ite (respans_pure rfl) (respans_pure rfl)

lemma declaration_carries (kind : NodeKind) :
    Carries φ (declaration readers kind) (declaration readers kind) := by
  unfold declaration
  refine (advance_respans φ).bind fun keyword => (declaratorTurn_respans hr).repeatedly.bind ?_
  exact fun declarators => node_carries φ kind keyword.span declarators

lemma declarationStatement_carries (kind : NodeKind) :
    Carries φ (declarationStatement readers kind) (declarationStatement readers kind) := by
  unfold declarationStatement
  refine (declaration_carries hr kind).bind fun d => (semicolon_ignores φ).bind fun _ => ?_
  exact extended_carries φ d

/-! ### Branches and loops -/

lemma condition_carries (opening : Expectation) :
    Carries φ (condition readers opening) (condition readers opening) := by
  unfold condition
  refine (expect_respans φ _ _).bind fun _ => (expression_carries hr).bind fun c => ?_
  exact (expect_respans φ _ _).bind fun _ => carries_pure c

lemma elseBranch_respans :
    Respans φ (List.map (·.respan φ)) (elseBranch readers) (elseBranch readers) := by
  unfold elseBranch
  refine (accept_ignores φ _).bind fun _ => .ite ?_ (respans_pure rfl)
  exact (hr .statement).bind fun n => respans_pure rfl

lemma ifStatement_carries : Carries φ (ifStatement readers) (ifStatement readers) := by
  unfold ifStatement
  refine (advance_respans φ).bind fun keyword => (condition_carries hr _).bind fun c => ?_
  refine (hr .statement).bind fun whenTrue => (elseBranch_respans hr).bind fun whenFalse => ?_
  exact node_carries φ _ keyword.span (c :: whenTrue :: whenFalse)

lemma whileStatement_carries : Carries φ (whileStatement readers) (whileStatement readers) := by
  unfold whileStatement
  refine (advance_respans φ).bind fun keyword => (condition_carries hr _).bind fun c => ?_
  exact (hr .statement).bind fun body => node_carries φ _ keyword.span [c, body]

lemma doWhileStatement_carries :
    Carries φ (doWhileStatement readers) (doWhileStatement readers) := by
  unfold doWhileStatement
  refine (advance_respans φ).bind fun keyword => (hr .statement).bind fun body => ?_
  refine (expect_respans φ _ _).bind fun _ => (condition_carries hr _).bind fun c => ?_
  exact (accept_ignores φ _).bind fun _ => node_carries φ _ keyword.span [body, c]

lemma forStart_carries : Carries φ (forStart readers) (forStart readers) := by
  unfold forStart
  refine Respans.withIn ((current_respans φ).bind fun t => ?_) false
  rw [show (t.respan φ).kind = t.kind from rfl]
  split
  · exact declaration_carries hr _
  · exact .ite absent_carries (expression_carries hr)

lemma forBody_carries : Carries φ (forBody readers) (forBody readers) := by
  unfold forBody
  exact (expect_respans φ _ _).bind fun _ => hr .statement

lemma forPart_carries (close : TokenKind) :
    Carries φ (forPart readers close) (forPart readers close) := by
  unfold forPart
  exact (isAt_ignores φ close).bind fun _ => .ite absent_carries (expression_carries hr)

lemma forSubject_carries (isIn : Bool) :
    Carries φ (forSubject readers isIn) (forSubject readers isIn) :=
  .ite (expression_carries hr) (assignment_carries hr)

lemma forEach_carries (start : Span) (target : Node) :
    Carries φ (forEach readers start target)
      (forEach readers (φ.span start) (target.respan φ)) := by
  unfold forEach
  refine (advance_respans φ).bind fun keyword => (forSubject_carries hr _).bind fun subject => ?_
  exact (forBody_carries hr).bind fun body => node_carries φ _ start [target, subject, body]

lemma forClassic_carries (start : Span) (init : Node) :
    Carries φ (forClassic readers start init)
      (forClassic readers (φ.span start) (init.respan φ)) := by
  unfold forClassic
  refine (expect_respans φ _ _).bind fun _ => (forPart_carries hr _).bind fun c => ?_
  refine (expect_respans φ _ _).bind fun _ => (forPart_carries hr _).bind fun update => ?_
  exact (forBody_carries hr).bind fun body => node_carries φ _ start [init, c, update, body]

lemma forStatement_carries : Carries φ (forStatement readers) (forStatement readers) := by
  unfold forStatement
  refine (advance_respans φ).bind fun keyword => (expect_respans φ _ _).bind fun _ => ?_
  refine (forStart_carries hr).bind fun init => (ignores_look fun _ => rfl).bind fun _ => ?_
  exact .ite (forEach_carries hr keyword.span init) (forClassic_carries hr keyword.span init)

/-! ### Switch and try -/

lemma clauseLabel_respans :
    Respans φ (Prod.map id (List.map (·.respan φ))) (clauseLabel readers)
      (clauseLabel readers) := by
  unfold clauseLabel
  refine (accept_ignores φ _).bind fun _ => .ite ?_ ((accept_ignores φ _).bind fun _ => ?_)
  · exact (expression_carries hr).bind fun test => respans_pure rfl
  · exact .ite (respans_pure rfl) respans_failHere

lemma clause_carries : Carries φ (clause readers) (clause readers) := by
  unfold clause
  refine (here_respans φ).bind fun start => (clauseLabel_respans hr).bind fun ⟨kind, test⟩ => ?_
  refine (expect_respans φ _ _).bind fun _ => (here_respans φ).bind fun bodyStart => ?_
  refine ((hr .statement).statements _).bind fun body => ?_
  refine (node_carries φ _ bodyStart body).bind fun block => ?_
  have whole := node_carries φ kind start (test ++ [block])
  rw [List.map_append] at whole
  exact whole

lemma clauseTurn_respans : Respans φ (Turn.respan φ) (clauseTurn readers) (clauseTurn readers) := by
  unfold clauseTurn
  refine (isAtAny_ignores φ _).bind fun _ => .ite (respans_pure rfl) ?_
  exact (clause_carries hr).bind fun n => respans_pure rfl

lemma switchStatement_carries : Carries φ (switchStatement readers) (switchStatement readers) := by
  unfold switchStatement
  refine (advance_respans φ).bind fun keyword => (expect_respans φ _ _).bind fun _ => ?_
  refine (expression_carries hr).bind fun value => (expect_respans φ _ _).bind fun _ => ?_
  refine (expect_respans φ _ _).bind fun _ => (clauseTurn_respans hr).repeatedly.bind ?_
  intro clauses
  exact (expect_respans φ _ _).bind fun _ => node_carries φ _ keyword.span (value :: clauses)

lemma catchParameter_carries : Carries φ (catchParameter readers) (catchParameter readers) := by
  unfold catchParameter
  refine (accept_ignores φ _).bind fun _ => .ite ?_ absent_carries
  refine (bindingTarget_carries hr).bind fun target => ?_
  exact (expect_respans φ _ _).bind fun _ => carries_pure target

lemma catchClause_carries : Carries φ (catchClause readers) (catchClause readers) := by
  unfold catchClause
  refine (advance_respans φ).bind fun keyword => (catchParameter_carries hr).bind fun p => ?_
  exact (block_carries hr).bind fun body => node_carries φ _ keyword.span [p, body]

lemma handler_carries (isThere : Bool) :
    Carries φ (handler readers isThere) (handler readers isThere) :=
  .ite (catchClause_carries hr) absent_carries

lemma finalizer_respans :
    Respans φ (List.map (·.respan φ)) (finalizer readers) (finalizer readers) := by
  unfold finalizer
  refine (accept_ignores φ _).bind fun _ => .ite ?_ (respans_pure rfl)
  exact (block_carries hr).bind fun body => respans_pure rfl

lemma tryStatement_carries : Carries φ (tryStatement readers) (tryStatement readers) := by
  unfold tryStatement
  refine (advance_respans φ).bind fun keyword => (block_carries hr).bind fun body => ?_
  refine (isAt_ignores φ _).bind fun hasHandler => (handler_carries hr _).bind fun handler => ?_
  refine (finalizer_respans hr).bind fun final => ?_
  rw [List.isEmpty_map]
  exact .ite (node_carries φ _ keyword.span (body :: handler :: final)) respans_failHere

/-! ### Jumps and all statements -/

lemma returnValue_respans :
    Respans φ (List.map (·.respan φ)) (returnValue readers) (returnValue readers) := by
  unfold returnValue
  refine (ignores_look fun _ => rfl).bind fun _ => .ite (respans_pure rfl) ?_
  exact (expression_carries hr).bind fun value => respans_pure rfl

lemma returnStatement_carries : Carries φ (returnStatement readers) (returnStatement readers) := by
  unfold returnStatement
  refine (advance_respans φ).bind fun keyword => (returnValue_respans hr).bind fun value => ?_
  exact (semicolon_ignores φ).bind fun _ => node_carries φ _ keyword.span value

lemma throwStatement_carries : Carries φ (throwStatement readers) (throwStatement readers) := by
  unfold throwStatement
  refine (advance_respans φ).bind fun keyword => (ignores_look fun _ => rfl).bind fun _ => ?_
  refine .ite respans_failHere ((expression_carries hr).bind fun value => ?_)
  exact (semicolon_ignores φ).bind fun _ => node_carries φ _ keyword.span [value]

lemma labeled_carries : Carries φ (labeled readers) (labeled readers) := by
  unfold labeled
  refine (advance_respans φ).bind fun label => (advance_respans φ).bind fun _ => ?_
  refine (hr .statement).bind fun body => ?_
  exact extended_mk φ _ label.value label.span _ [body]

lemma expressionStatement_carries :
    Carries φ (expressionStatement readers) (expressionStatement readers) := by
  unfold expressionStatement
  refine (here_respans φ).bind fun start => (expression_carries hr).bind fun e => ?_
  exact (semicolon_ignores φ).bind fun _ => node_carries φ _ start [e]

lemma wordStatement_carries : Carries φ (wordStatement readers) (wordStatement readers) := by
  unfold wordStatement
  refine (ignores_look fun s => ?_).bind fun _ => .ite (labeled_carries hr) ?_
  · rw [nextToken_respan]
    rfl
  refine isAsyncFunction_ignores.bind fun _ => .ite (asyncFunction_carries hr false) ?_
  exact expressionStatement_carries hr

lemma statement_carries : Carries φ (statement readers) (statement readers) := by
  unfold statement
  refine (current_respans φ).bind fun t => ?_
  rw [show (t.respan φ).kind = t.kind from rfl]
  split
  case h_1 => exact block_carries hr
  case h_2 | h_3 | h_4 => exact declarationStatement_carries hr _
  case h_5 => exact function_carries hr false {}
  case h_6 => exact classDefinition_carries hr false
  case h_7 => exact ifStatement_carries hr
  case h_8 => exact whileStatement_carries hr
  case h_9 => exact doWhileStatement_carries hr
  case h_10 => exact forStatement_carries hr
  case h_11 => exact switchStatement_carries hr
  case h_12 => exact tryStatement_carries hr
  case h_13 => exact returnStatement_carries hr
  case h_14 => exact throwStatement_carries hr
  case h_15 => exact jump_carries .breakStmt
  case h_16 => exact jump_carries .continueStmt
  case h_17 => exact emptyStatement_carries
  case h_18 => exact wordStatement_carries hr
  case h_19 => exact expressionStatement_carries hr

/-! ### The recursion -/

lemma production_carries : CarryAll φ (production readers) := by
  intro nt
  cases nt with
  | primary => exact primary_carries hr
  | newExpression => exact newExpression_carries hr
  | unary => exact unary_carries hr
  | binary level => exact binary_carries hr level
  | assignment => exact assignment_carries hr
  | expression => exact expression_carries hr
  | bindingTarget => exact bindingTarget_carries hr
  | bindingElement => exact bindingElement_carries hr
  | statement => exact statement_carries hr

omit hr in
/-- **Spans are handed on** by the readers of all nonterminals, at each depth. -/
theorem read_carries (φ : Respan) (depth : Nat) : CarryAll φ (read depth) := by
  induction depth with
  | zero => exact fun _ _ => rfl
  | succ depth ih => exact production_carries ih

omit hr in
lemma scriptReader_carries (depth : Nat) (name : Bytes) :
    Carries φ (scriptReader depth name) (scriptReader depth name) := by
  unfold scriptReader
  refine (here_respans φ).bind fun start => ?_
  refine ((read_carries φ depth .statement).statements []).bind fun body => ?_
  refine (here_respans φ).bind fun final => respans_pure ?_
  rw [Node.respan_mk, φ.merge]

omit hr in
/-- Tokens with changed spans form the same script with its spans changed. -/
theorem script_respan (φ : Respan) (name : Bytes) (tokens : List Token) :
    script name (tokens.map (·.respan φ)) =
      ((script name tokens).map (·.respan φ)).mapError (List.map (·.respan φ)) := by
  cases tokens with
  | nil => rfl
  | cons first rest =>
    have carries := @scriptReader_carries φ (rest.length + 2) name (start first rest)
    have begins : start (first.respan φ) (rest.map (·.respan φ)) =
        (start first rest).respan φ := rfl
    rw [List.map_cons, script, script, List.length_map, begins, carries]
    cases scriptReader (rest.length + 2) name (start first rest) with
    | ok n s =>
      change (if (s.faults.map _).isEmpty then _ else _) = _
      rw [List.isEmpty_map]
      dsimp only
      cases s.faults.isEmpty <;> rfl
    | fault fault s =>
      change Except.error (s.faults.map _ ++ [_]) = Except.error ((s.faults ++ [fault]).map _)
      rw [List.map_append]
      rfl
    | stuck => rfl

end ModuleLint.Grammar
