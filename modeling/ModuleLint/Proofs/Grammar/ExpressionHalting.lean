import ModuleLint.Proofs.Grammar.Halting

/-!
The parts of an expression in front of a closing parenthesis.

Only the readers that may end an expression occur here. Those that start one take a token, so they
do not start at the end.
-/

namespace ModuleLint

/-- Whether an expression may end with the nonterminal. -/
def Nonterminal.endsExpression : Nonterminal → Bool
  | .bindingTarget | .bindingElement | .statement => false
  | _ => true

namespace Grammar

open Reader

/-- The readers that may end an expression halt at a closing parenthesis. -/
def HaltAll (readers : Readers) : Prop := ∀ nt : Nonterminal, nt.endsExpression → Halts (readers nt)

variable {readers : Readers}

lemma takeBelow_zero : TakeBelow 0 readers := fun _ _ _ none => absurd none (Nat.not_lt_zero _)

variable [∀ nt, Regular (readers nt)] {s : ReaderState}

/-! ### Brackets -/

lemma block_covers : Covers (block readers) := by
  unfold block
  refine .after fun start => .after fun _ => .after fun body => ?_
  exact .expect (by decide) (by decide) fun _ => halts_node _ _ _

lemma functionRest_covers (start : Span) (flags : NodeFlags) (name : Node) :
    Covers (functionRest readers start flags name) := by
  unfold functionRest
  exact .after fun params => .bind (block_covers.withIn true) fun body => halts_extended _

lemma function_covers (isExpression : Bool) (flags : NodeFlags) :
    Covers (function readers isExpression flags) := by
  unfold function
  exact .after fun keyword => .after fun _ => .after fun name => functionRest_covers _ _ _

lemma asyncFunction_covers (isExpression : Bool) :
    Covers (asyncFunction readers isExpression) := by
  unfold asyncFunction
  exact .after fun _ => function_covers _ _

lemma arguments_covers : Covers (arguments readers) := by
  unfold arguments
  refine .after fun _ => .after fun items => ?_
  exact .expect (by decide) (by decide) fun _ => halts_pure _

lemma index_covers (object : Node) : Covers (index readers object) := by
  unfold index
  exact .after fun i => .expect (by decide) (by decide) fun _ => halts_node _ _ _

lemma arrayLiteral_covers : Covers (arrayLiteral readers) := by
  unfold arrayLiteral
  refine .after fun bracket => .after fun elements => ?_
  exact .expect (by decide) (by decide) fun _ => halts_node _ _ _

lemma objectLiteral_covers : Covers (objectLiteral readers) := by
  unfold objectLiteral
  refine .after fun brace => .after fun properties => ?_
  exact .expect (by decide) (by decide) fun _ => halts_node _ _ _

lemma classBody_covers : Covers (classBody readers) := by
  unfold classBody
  refine .after fun start => .after fun _ => .after fun members => ?_
  exact .expect (by decide) (by decide) fun _ => halts_node _ _ _

lemma classDefinition_covers (isExpression : Bool) :
    Covers (classDefinition readers isExpression) := by
  unfold classDefinition
  refine .after fun keyword => .after fun name => .after fun base => ?_
  exact classBody_covers.bind fun members => halts_node _ _ _

lemma parenthesized_covers : Covers (parenthesized readers) := by
  unfold parenthesized
  refine .after fun _ => .after fun inner => ?_
  exact .expect (by decide) (by decide) fun _ => halts_pure inner

/-! ### Operands -/

lemma literal_haltsAt (kind : NodeKind) (keepsValue : Bool) (inside : s.current.kind ≠ .eof) :
    HaltsAt (literal kind keepsValue) s := by
  unfold literal
  exact (haltsAt_advance inside).bind fun t _ _ => halts_pure _ _

lemma primary_halts : Halts (primary readers) := by
  refine .inside (primary_takes takeBelow_zero) fun s inside => ?_
  unfold primary
  refine .lookInside inside (fun _ alike => alike.isAsyncFunction) ?_
  split
  · exact (asyncFunction_covers true).halts s
  · refine .current inside ?_
    split
    · exact literal_haltsAt _ _ inside
    · split
      · exact parenthesized_covers.halts s
      · exact arrayLiteral_covers.halts s
      · exact objectLiteral_covers.halts s
      · exact (function_covers true {}).halts s
      · exact (classDefinition_covers true).halts s
      · exact halts_failHere _ s

lemma property_halts (object : Node) : Halts (property object) := by
  have last (t : Token) (h : t.kind = .eof ∨ t.kind = .rparen) : ¬ t.kind.isName := by
    obtain ends | closes := h
    · rw [ends]
      decide
    · rw [closes]
      decide
  unfold property
  refine .current (fun s inside => ?_) (fun t h => if_neg (last t h)) (halts_failHere _)
  split
  · exact (haltsAt_advance inside).bind fun t u _ => halts_extended _ u
  · exact halts_failHere _ s

lemma access_halts (allowCall : Bool) (operand : Node) :
    Halts (access readers allowCall operand) := by
  unfold access
  refine .accept (by decide) (by decide) fun dot => .either ?_ ?_
  · exact (property_halts operand).bind fun n => halts_pure _
  refine .accept (by decide) (by decide) fun bracket => .either ?_ ?_
  · exact (index_covers operand).halts.bind fun n => halts_pure _
  refine .isAt (by decide) (by decide) (fun s _ => ?_) (.either ?_ (halts_pure _))
  · refine Halts.either (.bind arguments_covers.halts fun args => ?_) (halts_pure _) s
    exact (halts_node _ _ _).bind fun n => halts_pure _
  · refine .bind arguments_covers.halts fun args => ?_
    exact (halts_node _ _ _).bind fun n => halts_pure _

lemma accesses_halts (allowCall : Bool) (operand : Node) :
    Halts (accesses readers allowCall operand) := by
  unfold accesses
  exact .growing (access_halts allowCall) operand

variable (hr : HaltAll readers)
include hr

lemma created_halts : Halts (created readers) := by
  unfold created
  exact .isAt (by decide) (by decide) (fun s _ => hr .newExpression rfl s) primary_halts

omit hr in
lemma createdArguments_halts : Halts (createdArguments readers) := by
  unfold createdArguments
  exact .isAt (by decide) (by decide) (fun s _ => arguments_covers.halts s) (halts_pure _)

lemma newExpression_halts : Halts (newExpression readers) := by
  refine .inside (newExpression_takes takeBelow_zero) fun s inside => ?_
  unfold newExpression
  refine (haltsAt_advance inside).bind fun keyword u _ => ?_
  refine (created_halts hr).bind (fun callee => ?_) u
  refine (accesses_halts false callee).bind fun callee => ?_
  exact createdArguments_halts.bind fun args => halts_node _ _ _

lemma operandBase_halts : Halts (operandBase readers) := by
  unfold operandBase
  exact .isAt (by decide) (by decide) (fun s _ => newExpression_halts hr s) primary_halts

omit hr [∀ nt, Regular (readers nt)] in
/-- Neither the end nor a closing parenthesis is an operator behind an operand. -/
lemma afterOperand_halts (start : Span) (operand : Node) : Halts (afterOperand start operand) := by
  have last (t : Token) (h : t.kind = .eof ∨ t.kind = .rparen) :
      ¬ ((t.kind = .plusPlus ∨ t.kind = .minusMinus) ∧ ¬ t.newlineBefore) := by
    obtain ends | closes := h
    · simp [ends]
    · simp [closes]
  unfold afterOperand
  refine .current (fun s inside => ?_) (fun t h => if_neg (last t h)) (halts_pure operand)
  split
  · split
    · exact (haltsAt_advance inside).bind fun operator u _ => halts_extended _ u
    · exact halts_fail _ _ s
  · exact halts_pure operand s

lemma operand_halts : Halts (operand readers) := by
  refine .inside (operand_takes takeBelow_zero) fun s inside => ?_
  unfold operand
  refine .here inside ?_
  refine (operandBase_halts hr).bind (fun base => ?_) s
  exact (accesses_halts true base).bind fun n => afterOperand_halts _ n

/-! ### Operators -/

lemma unary_halts : Halts (unary readers) := by
  refine .inside (unary_takes takeBelow_zero) fun s inside => ?_
  unfold unary
  refine .current inside ?_
  split
  · refine (haltsAt_advance inside).bind fun operator u _ => ?_
    exact (hr .unary rfl).bind (fun argument => halts_extended _) u
  · split
    · refine (haltsAt_advance inside).bind fun operator u _ => ?_
      refine (hr .unary rfl).bind (fun argument => ?_) u
      exact .either (halts_extended _) (halts_fail _ _)
    · exact operand_halts hr s

omit hr [∀ nt, Regular (readers nt)] in
/-- Neither the end nor a closing parenthesis is a binary operator. -/
lemma level_closed {s' : ReaderState} (closed : s.Closed s') :
    level s'.allowsIn s'.current.kind = level s.allowsIn s.current.kind := by
  by_cases ends : s.current.kind = .eof
  · rw [closed.atEnd ends, ends]
    rfl
  · rw [closed.allowsIn, (closed.behind ends).1]

lemma binaryTurn_halts (start : Span) (floor : Nat) (left : Node) :
    Halts (binaryTurn readers start floor left) := by
  unfold binaryTurn
  refine fun s => .look (fun s' closed => level_closed closed) ?_
  split
  · exact halts_pure _ s
  next tighter =>
    have inside : s.current.kind ≠ .eof := fun ends => tighter (by rw [ends]; exact Nat.zero_le _)
    refine (haltsAt_advance inside).bind fun operator u _ => ?_
    refine (hr _ rfl).bind (fun right => ?_) u
    exact (halts_extended _).bind fun n => halts_pure _

lemma binary_halts (floor : Nat) : Halts (binary readers floor) := by
  refine .inside (binary_takes takeBelow_zero) fun s inside => ?_
  unfold binary
  refine .here inside ?_
  exact (unary_halts hr).bind (fun left => .growing (binaryTurn_halts hr _ floor) left) s

lemma conditional_halts : Halts (conditional readers) := by
  refine .inside (conditional_takes takeBelow_zero) fun s inside => ?_
  unfold conditional
  refine .here inside ?_
  refine (binary_halts hr 0).bind (fun condition => ?_) s
  refine .accept (by decide) (by decide) fun question => .either ?_ (halts_pure _)
  refine Covers.halts (.after fun whenTrue => .expect (by decide) (by decide) fun _ => ?_)
  exact (hr .assignment rfl).bind fun whenFalse => halts_node _ _ _

lemma assignmentRest_haltsAt (start : Span) (target : Node) (inside : s.current.kind ≠ .eof) :
    HaltsAt (assignmentRest readers start target) s := by
  unfold assignmentRest
  refine (haltsAt_advance inside).bind fun operator u _ => ?_
  refine Halts.either (.bind (hr .assignment rfl) fun value => ?_) (halts_fail _ _) u
  exact .either (halts_node _ _ _) (halts_extended _)

lemma arrowBody_halts : Halts (arrowBody readers) := by
  unfold arrowBody
  refine .isAt (by decide) (by decide) (fun s _ => ?_) (hr .assignment rfl)
  exact (block_covers.withIn true).halts s

lemma arrowFunction_covers (isAsync : Bool) : Covers (arrowFunction readers isAsync) := by
  unfold arrowFunction
  refine .after fun start => .after fun params => .expect (by decide) (by decide) fun _ => ?_
  exact (arrowBody_halts hr).bind fun body => halts_extended _

lemma assignment_halts : Halts (assignment readers) := by
  have assigns (t : Token) (h : t.kind.isAssignmentOperator) :
      t.kind ≠ .eof ∧ t.kind ≠ .rparen := by
    refine ⟨fun ends => ?_, fun closes => ?_⟩
    · rw [ends] at h
      cases h
    · rw [closes] at h
      cases h
  refine .inside (assignment_takes takeBelow_zero) fun s inside => ?_
  unfold assignment
  refine .lookInside inside (fun _ alike => alike.arrow) ?_
  split
  · exact (arrowFunction_covers hr false).halts s
  refine .lookInside inside (fun _ alike => alike.isAsyncArrow) ?_
  split
  · exact (Covers.after fun _ => arrowFunction_covers hr true).halts s
  refine .here inside ?_
  refine (conditional_halts hr).bind (fun target => ?_) s
  exact .test assigns (fun u inside => assignmentRest_haltsAt hr _ target inside) (halts_pure _)

lemma commaTurn_halts (start : Span) (left : Node) : Halts (commaTurn readers start left) := by
  unfold commaTurn
  refine .accept (by decide) (by decide) fun comma => .either ?_ (halts_pure _)
  refine (assignment_halts hr).bind fun right => ?_
  exact (halts_node _ _ _).bind fun n => halts_pure _

lemma expression_halts : Halts (expression readers) := by
  refine .inside (expression_takes takeBelow_zero) fun s inside => ?_
  unfold expression
  refine .here inside ?_
  exact (assignment_halts hr).bind (fun first => .growing (commaTurn_halts hr _) first) s

/-! ### The recursion -/

lemma production_halts : HaltAll (production readers) := by
  intro nt ends
  cases nt with
  | primary => exact primary_halts
  | newExpression => exact newExpression_halts hr
  | unary => exact unary_halts hr
  | binary floor => exact binary_halts hr floor
  | assignment => exact assignment_halts hr
  | expression => exact expression_halts hr
  | bindingTarget | bindingElement | statement => cases ends

omit hr [∀ nt, Regular (readers nt)] in
lemma read_halts (depth : Nat) : HaltAll (read depth) := by
  induction depth with
  | zero =>
    intro nt ends s a t s' run
    cases run
  | succ depth ih => exact production_halts ih

end Grammar

end ModuleLint
