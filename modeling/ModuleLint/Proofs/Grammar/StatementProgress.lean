import ModuleLint.Grammar.Statement
import ModuleLint.Proofs.Grammar.ExpressionProgress

/-!
Progress of statements.
-/

namespace ModuleLint.Grammar

open Reader

variable {n : Nat} {readers : Readers} (hr : TakeBelow n readers)
include hr

/-! ### Declarations -/

lemma initializer_goes : Goes (n + 1) (initializer readers) := by
  unfold initializer
  refine .acceptFirst rfl ?_ goes_pure
  exact (assignment_takes hr).goes.down.bind fun value => goes_pure

lemma declarator_takes : Takes (n + 1) (declarator readers) := by
  unfold declarator
  refine .here fun start => .isAtAny rfl ((pattern_takes hr).then fun p => ?_) ?_
  · exact (initializer_goes hr).bind fun value => node_goes
  · exact .then (expect_takes rfl) fun name => (initializer_goes hr).bind fun value => extended_goes

lemma declaratorTurn_turns : Turns (n + 1) (declaratorTurn readers) := by
  unfold declaratorTurn
  exact (declarator_takes hr).then fun d => .accept rfl goes_pure goes_pure

lemma declaration_takes {kind : NodeKind} : TakesInside (n + 1) (declaration readers kind) := by
  unfold declaration
  refine advance_takes.then fun keyword => ?_
  exact (declaratorTurn_turns hr).repeatedly.bind fun declarators => node_goes

lemma declarationStatement_takes {kind : NodeKind} :
    TakesInside (n + 1) (declarationStatement readers kind) := by
  unfold declarationStatement
  exact (declaration_takes hr).then fun d => semicolon_goes.bind fun _ => extended_goes

/-! ### Branches and loops -/

lemma condition_takes {opening : Expectation} : Takes (n + 1) (condition readers opening) := by
  unfold condition
  refine .then (expect_takes rfl) fun _ => (expression_takes hr).goes.bind fun c => ?_
  exact .bind (expect_goes rfl) fun _ => goes_pure

lemma elseBranch_goes : Goes n (elseBranch readers) := by
  unfold elseBranch
  exact .accept rfl ((hr .statement).goes.bind fun body => goes_pure) goes_pure

lemma ifStatement_takes : TakesInside (n + 1) (ifStatement readers) := by
  unfold ifStatement
  refine advance_takes.first fun keyword => (condition_takes hr).goes.down.bind fun c => ?_
  refine (hr .statement).goes.bind fun whenTrue => ?_
  exact (elseBranch_goes hr).bind fun whenFalse => node_goes

lemma whileStatement_takes : TakesInside (n + 1) (whileStatement readers) := by
  unfold whileStatement
  refine advance_takes.first fun keyword => (condition_takes hr).goes.down.bind fun c => ?_
  exact (hr .statement).goes.bind fun body => node_goes

lemma doWhileStatement_takes : TakesInside (n + 1) (doWhileStatement readers) := by
  unfold doWhileStatement
  refine advance_takes.first fun keyword => (hr .statement).goes.bind fun body => ?_
  refine .bind (expect_goes rfl) fun _ => (condition_takes hr).goes.down.bind fun c => ?_
  exact .bind (accept_goes rfl) fun _ => node_goes

omit hr in
lemma absent_goes : Goes n absent := by
  unfold absent
  exact .here fun span => goes_pure

lemma forStart_goes : Goes (n + 1) (forStart readers) := by
  unfold forStart
  refine .withIn (.current fun t _ => ?_)
  split
  case h_1 kind hk =>
    refine (declaration_takes hr).goes.within (inside_of_eq fun ht => ?_)
    rw [ht] at hk
    cases hk
  case h_2 => exact .either absent_goes.from (expression_takes hr).goes.from

lemma forBody_takes : Takes n (forBody readers) := by
  unfold forBody
  exact .then (expect_takes rfl) fun _ => (hr .statement).goes

lemma forPart_goes {close : TokenKind} : Goes (n + 1) (forPart readers close) := by
  unfold forPart
  exact .here fun isAbsent => .either absent_goes (expression_takes hr).goes

lemma forSubject_goes {isIn : Bool} : Goes (n + 1) (forSubject readers isIn) := by
  unfold forSubject
  exact .either (expression_takes hr).goes (assignment_takes hr).goes

lemma forEach_goes {start : Span} {target : Node} : Goes n (forEach readers start target) := by
  unfold forEach
  refine advance_goes.bind fun keyword => (forSubject_goes hr).down.bind fun subject => ?_
  exact (forBody_takes hr).goes.bind fun body => node_goes

lemma forClassic_goes {start : Span} {init : Node} : Goes n (forClassic readers start init) := by
  unfold forClassic
  refine .bind (expect_goes rfl) fun _ => (forPart_goes hr).down.bind fun c => ?_
  refine .bind (expect_goes rfl) fun _ => (forPart_goes hr).down.bind fun update => ?_
  exact (forBody_takes hr).goes.bind fun body => node_goes

lemma forStatement_takes : TakesInside (n + 1) (forStatement readers) := by
  unfold forStatement
  refine advance_takes.first fun keyword => .bind (expect_goes rfl) fun _ => ?_
  refine (forStart_goes hr).down.bind fun init => .here fun isEach => ?_
  exact .either (forEach_goes hr) (forClassic_goes hr)

/-! ### Switch and try -/

lemma clauseLabel_takes : Takes (n + 1) (clauseLabel readers) := by
  unfold clauseLabel
  refine .acceptFirst rfl ?_ (.accept rfl goes_pure moves_failHere)
  exact (expression_takes hr).goes.down.bind fun e => goes_pure

lemma clause_takes : Takes n (clause readers) := by
  unfold clause
  refine .here fun start => (clauseLabel_takes hr).down.then fun ⟨kind, test⟩ => ?_
  refine .bind (expect_goes rfl) fun _ => .here fun bodyStart => ?_
  exact (statements_goes (hr .statement)).bind fun body => node_goes.bind fun block => node_goes

lemma clauseTurn_turns : Turns n (clauseTurn readers) := by
  unfold clauseTurn
  refine .untilAny (by decide) (moves_stay nofun) ?_
  exact (clause_takes hr).from.then fun m => goes_pure

lemma switchStatement_takes : TakesInside (n + 1) (switchStatement readers) := by
  unfold switchStatement
  refine advance_takes.first fun keyword => .bind (expect_goes rfl) fun _ => ?_
  refine (expression_takes hr).goes.down.bind fun value => .bind (expect_goes rfl) fun _ => ?_
  refine .bind (expect_goes rfl) fun _ => (clauseTurn_turns hr).repeatedly.bind fun clauses => ?_
  exact .bind (expect_goes rfl) fun _ => node_goes

lemma catchParameter_goes : Goes (n + 1) (catchParameter readers) := by
  unfold catchParameter
  refine .acceptFirst rfl ((bindingTarget_takes hr).goes.down.bind fun target => ?_) absent_goes
  exact .bind (expect_goes rfl) fun _ => goes_pure

lemma catchClause_goes : Goes (n + 1) (catchClause readers) := by
  unfold catchClause
  refine advance_goes.bind fun keyword => (catchParameter_goes hr).bind fun parameter => ?_
  exact (block_takes hr).goes.bind fun body => node_goes

lemma handler_goes {isThere : Bool} : Goes (n + 1) (handler readers isThere) := by
  unfold handler
  exact .either (catchClause_goes hr) absent_goes

lemma finalizer_goes : Goes (n + 1) (finalizer readers) := by
  unfold finalizer
  exact .acceptFirst rfl ((block_takes hr).goes.down.bind fun body => goes_pure) goes_pure

lemma tryStatement_takes : TakesInside (n + 1) (tryStatement readers) := by
  unfold tryStatement
  refine advance_takes.then fun keyword => (block_takes hr).goes.bind fun body => ?_
  refine .here fun hasHandler => (handler_goes hr).bind fun handler => ?_
  exact (finalizer_goes hr).bind fun final => .either node_goes moves_failHere

/-! ### Jumps -/

lemma returnValue_goes : Goes (n + 1) (returnValue readers) := by
  unfold returnValue
  exact .here fun ends => .either goes_pure ((expression_takes hr).goes.bind fun value => goes_pure)

lemma returnStatement_takes : TakesInside (n + 1) (returnStatement readers) := by
  unfold returnStatement
  refine advance_takes.then fun keyword => (returnValue_goes hr).bind fun value => ?_
  exact semicolon_goes.bind fun _ => node_goes

lemma throwStatement_takes : TakesInside (n + 1) (throwStatement readers) := by
  unfold throwStatement
  refine advance_takes.then fun keyword => .here fun isMissing => .either moves_failHere ?_
  refine (expression_takes hr).goes.bind fun value => ?_
  exact semicolon_goes.bind fun _ => node_goes

omit hr in
lemma jumpLabel_goes : Goes n jumpLabel := by
  unfold jumpLabel
  exact .here fun t => .either (advance_goes.bind fun label => goes_pure) goes_pure

omit hr in
lemma jump_takes {kind : NodeKind} : TakesInside n (jump kind) := by
  unfold jump
  refine advance_takes.then fun keyword => jumpLabel_goes.bind fun label => ?_
  exact semicolon_goes.bind fun _ => extended_goes

/-! ### All statements -/

lemma labeled_takes : TakesInside (n + 1) (labeled readers) := by
  unfold labeled
  refine advance_takes.first fun label => advance_goes.bind fun _ => ?_
  exact (hr .statement).goes.bind fun body => extended_goes

lemma expressionStatement_takes : Takes (n + 1) (expressionStatement readers) := by
  unfold expressionStatement
  refine .here fun start => (expression_takes hr).then fun e => ?_
  exact semicolon_goes.bind fun _ => node_goes

omit hr in
lemma emptyStatement_takes : TakesInside n emptyStatement := by
  unfold emptyStatement
  exact advance_takes.then fun t => goes_pure

lemma wordStatement_takes : TakesInside (n + 1) (wordStatement readers) := by
  unfold wordStatement
  refine .here fun isLabel => .either (labeled_takes hr) (.here fun isAsync => ?_)
  exact .either (asyncFunction_takes hr).from (expressionStatement_takes hr).from

lemma statement_takes : Takes (n + 1) (statement readers) := by
  unfold statement
  refine .current fun t _ => ?_
  have inside (kind : TokenKind) (ht : t.kind = kind) (hk : (kind == .eof) = false) :
      ∀ u, u = t → u.kind ≠ .eof := inside_of_eq (by rw [ht]; exact ne_of_beq_false hk)
  split
  case h_1 => exact (block_takes hr).from
  case h_2 ht | h_3 ht | h_4 ht => exact (declarationStatement_takes hr).within (inside _ ht rfl)
  case h_5 => exact (function_takes hr).from
  case h_6 => exact (classDefinition_takes hr).from
  case h_7 ht => exact (ifStatement_takes hr).within (inside _ ht rfl)
  case h_8 ht => exact (whileStatement_takes hr).within (inside _ ht rfl)
  case h_9 ht => exact (doWhileStatement_takes hr).within (inside _ ht rfl)
  case h_10 ht => exact (forStatement_takes hr).within (inside _ ht rfl)
  case h_11 ht => exact (switchStatement_takes hr).within (inside _ ht rfl)
  case h_12 ht => exact (tryStatement_takes hr).within (inside _ ht rfl)
  case h_13 ht => exact (returnStatement_takes hr).within (inside _ ht rfl)
  case h_14 ht => exact (throwStatement_takes hr).within (inside _ ht rfl)
  case h_15 ht | h_16 ht => exact jump_takes.within (inside _ ht rfl)
  case h_17 ht => exact emptyStatement_takes.within (inside _ ht rfl)
  case h_18 ht => exact (wordStatement_takes hr).within (inside _ ht rfl)
  case h_19 => exact (expressionStatement_takes hr).from

end ModuleLint.Grammar
