import ModuleLint.Grammar.Statement
import ModuleLint.Proofs.Grammar.ExpressionShape

/-!
The shape of statements.
-/

namespace ModuleLint.Grammar

open Node Reader

variable {readers : Readers} (hr : YieldShapes readers)
include hr

/-! ### Declarations -/

lemma initializer_yields : Yields (initializer readers) OptionalValue := by
  unfold initializer
  refine .skip fun _ => .either ?_ (yields_pure (.inl rfl))
  exact .bind (assignment_yields hr) fun value hv => yields_pure (.inr ⟨value, rfl, hv⟩)

lemma declarator_yields : Yields (declarator readers) (As IsDeclarator) := by
  unfold declarator
  refine .skip fun start => .skip fun _ => .either ?_ (.skip fun name => ?_)
  · refine .bind (pattern_yields hr) fun p hp => .bind (initializer_yields hr) fun l hl => ?_
    refine yields_node fun span => ⟨.inr rfl, ?_⟩
    rcases hl with rfl | ⟨value, rfl, hv⟩
    · exact .mk (.inl ⟨hp.1, trivial⟩) (by simp [hp.2])
    · exact .mk (.inr ⟨hp.1, hv.1, trivial⟩) (by simp [hp.2, hv.2])
  · refine .bind (initializer_yields hr) fun l hl => yields_extended fun span => ⟨.inl rfl, ?_⟩
    rcases hl with rfl | ⟨value, rfl, hv⟩
    · exact .mk trivial (by simp)
    · exact .mk hv.1 (by simp [hv.2])

lemma declaratorTurn_yields :
    Yields (declaratorTurn readers) fun u => ∃ d, u.items = [d] ∧ d.As IsDeclarator := by
  unfold declaratorTurn
  refine .bind (declarator_yields hr) fun d hd => .skip fun _ => ?_
  exact .either (yields_pure ⟨d, rfl, hd⟩) (yields_pure ⟨d, rfl, hd⟩)

omit hr in
/-- The kinds of declarations. -/
lemma childrenFit_declaration {kind : NodeKind} (hk : kind.isDeclaration) {l : List Node}
    (h : l ≠ []) (hl : ∀ n ∈ l, n.IsDeclarator) : ChildrenFit kind l := by
  obtain ⟨d, ds, rfl⟩ := List.exists_cons_of_ne_nil h
  have headed : Headed IsDeclarator IsDeclarator (d :: ds) := by simpa [Headed] using hl
  cases kind <;> first | exact headed | cases hk

lemma declaration_yields {kind : NodeKind} (hk : kind.isDeclaration) :
    Yields (declaration readers kind) (As (·.kind = kind)) := by
  unfold declaration
  have turns := declaratorTurn_yields hr
  have some := Yields.repeatedly_ne_nil (turns.mono fun u ⟨d, hu, _⟩ => by simp [hu])
  have each := Yields.repeatedly (Q := As IsDeclarator)
    (turns.mono fun u ⟨d, hu, hd⟩ => by simpa [hu] using hd)
  refine .skip fun keyword => .bind (some.and each) fun l ⟨hne, hl⟩ => yields_node fun span => ?_
  exact ⟨rfl, .mk (childrenFit_declaration hk hne fun n hn => (hl n hn).1) fun n hn => (hl n hn).2⟩

lemma declarationStatement_yields {kind : NodeKind} (hk : kind.isDeclaration) :
    Yields (declarationStatement readers kind) (As IsStatement) := by
  unfold declarationStatement
  refine .bind (declaration_yields hr hk) fun d hd => .skip fun _ => yields_extended fun span => ?_
  have hs : d.IsStatement := isStatement_of_declaration (by rw [hd.1]; exact hk)
  exact ⟨hs, .mk hd.2.fit fun n hn => hd.2.child hn⟩

/-! ### Branches and loops -/

omit hr in
lemma as_statement {kind : NodeKind} {span : Span} {l : List Node} (hk : kind.isStatement)
    (fit : ChildrenFit kind l) (below : ∀ c ∈ l, c.WellFormed) :
    (Node.of kind span l).As IsStatement :=
  ⟨hk, .mk fit below⟩

lemma condition_yields (opening : Expectation) :
    Yields (condition readers opening) (As IsExpression) := by
  unfold condition
  exact .skip fun _ => .bind (expression_yields hr) fun c hc => .skip fun _ => yields_pure hc

lemma elseBranch_yields :
    Yields (elseBranch readers) fun l => l = [] ∨ ∃ n, l = [n] ∧ n.As IsStatement := by
  unfold elseBranch
  refine .skip fun _ => .either ?_ (yields_pure (.inl rfl))
  exact .bind (hr .statement) fun n hn => yields_pure (.inr ⟨n, rfl, hn⟩)

lemma ifStatement_yields : Yields (ifStatement readers) (As IsStatement) := by
  unfold ifStatement
  refine .skip fun keyword => .bind (condition_yields hr _) fun c hc => ?_
  refine .bind (hr .statement) fun whenTrue ht => .bind (elseBranch_yields hr) fun l hl => ?_
  refine yields_node fun span => ?_
  rcases hl with rfl | ⟨whenFalse, rfl, hf⟩
  · exact as_statement rfl (.inl ⟨hc.1, ht.1, trivial⟩) (by simp [hc.2, ht.2])
  · exact as_statement rfl (.inr ⟨hc.1, ht.1, hf.1, trivial⟩) (by simp [hc.2, ht.2, hf.2])

lemma whileStatement_yields : Yields (whileStatement readers) (As IsStatement) := by
  unfold whileStatement
  refine .skip fun keyword => .bind (condition_yields hr _) fun c hc => ?_
  refine .bind (hr .statement) fun body hb => yields_node fun span => ?_
  exact as_statement rfl ⟨hc.1, hb.1, trivial⟩ (by simp [hc.2, hb.2])

lemma doWhileStatement_yields : Yields (doWhileStatement readers) (As IsStatement) := by
  unfold doWhileStatement
  refine .skip fun keyword => .bind (hr .statement) fun body hb => .skip fun _ => ?_
  refine .bind (condition_yields hr _) fun c hc => .skip fun _ => yields_node fun span => ?_
  exact as_statement rfl ⟨hb.1, hc.1, trivial⟩ (by simp [hc.2, hb.2])

omit hr in
lemma absent_yields : Yields absent (As (·.kind = .empty)) := by
  unfold absent
  exact .skip fun span => yields_pure as_empty

omit hr in
lemma declarationKind?_isDeclaration {t : TokenKind} {kind : NodeKind}
    (h : declarationKind? t = some kind) : kind.isDeclaration := by
  cases t <;> cases h <;> rfl

lemma forStart_yields : Yields (forStart readers) (As IsLoopStart) := by
  unfold forStart
  refine .withIn false (.skip fun t => ?_)
  split
  case h_1 kind h =>
    have hk := declarationKind?_isDeclaration h
    exact (declaration_yields hr hk).mono fun n hn => hn.mono fun h => .inl (by rw [h]; exact hk)
  case h_2 =>
    refine .either (absent_yields.mono fun n hn => hn.mono (.inr ∘ .inl)) ?_
    exact (expression_yields hr).mono fun n hn => hn.mono (.inr ∘ .inr)

lemma forBody_yields : Yields (forBody readers) (As IsStatement) := by
  unfold forBody
  exact .skip fun _ => hr .statement

lemma forPart_yields (close : TokenKind) :
    Yields (forPart readers close) (As IsExpressionOrEmpty) := by
  unfold forPart
  refine .skip fun _ => .either (absent_yields.mono fun n hn => hn.mono .inr) ?_
  exact (expression_yields hr).mono fun n hn => hn.orEmpty

lemma forSubject_yields (isIn : Bool) : Yields (forSubject readers isIn) (As IsExpression) := by
  unfold forSubject
  exact .either (expression_yields hr) (assignment_yields hr)

lemma forEach_yields (start : Span) {target : Node} (ht : target.As IsLoopStart) :
    Yields (forEach readers start target) (As IsStatement) := by
  unfold forEach
  refine .skip fun keyword => .bind (forSubject_yields hr _) fun subject hs => ?_
  refine .bind (forBody_yields hr) fun body hb => yields_node fun span => ?_
  have below : ∀ c ∈ [target, subject, body], c.WellFormed := by simp [ht.2, hs.2, hb.2]
  split
  · exact as_statement rfl ⟨ht.1, hs.1, hb.1, trivial⟩ below
  · exact as_statement rfl ⟨ht.1, hs.1, hb.1, trivial⟩ below

lemma forClassic_yields (start : Span) {init : Node} (hi : init.As IsLoopStart) :
    Yields (forClassic readers start init) (As IsStatement) := by
  unfold forClassic
  refine .skip fun _ => .bind (forPart_yields hr .semi) fun c hc => .skip fun _ => ?_
  refine .bind (forPart_yields hr .rparen) fun update hu => ?_
  refine .bind (forBody_yields hr) fun body hb => ?_
  refine yields_node fun span => as_statement rfl ⟨hi.1, hc.1, hu.1, hb.1, trivial⟩ ?_
  simp [hi.2, hc.2, hu.2, hb.2]

lemma forStatement_yields : Yields (forStatement readers) (As IsStatement) := by
  unfold forStatement
  refine .skip fun keyword => .skip fun _ => .bind (forStart_yields hr) fun init hi => ?_
  refine .skip fun _ => .either (forEach_yields hr keyword.span hi) ?_
  exact forClassic_yields hr keyword.span hi

/-! ### Switch and try -/

/-- A label is a kind of clause and the value it tests for. -/
lemma clauseLabel_yields :
    Yields (clauseLabel readers) fun (kind, test) =>
      (kind = .defaultClause ∧ test = []) ∨
        (kind = .caseClause ∧ ∃ e, test = [e] ∧ e.As IsExpression) := by
  unfold clauseLabel
  refine .skip fun _ => .either ?_ (.skip fun _ => ?_)
  · exact .bind (expression_yields hr) fun e he => yields_pure (.inr ⟨rfl, e, rfl, he⟩)
  · exact .either (yields_pure (.inl ⟨rfl, rfl⟩)) yields_failHere

lemma clause_yields :
    Yields (clause readers) (As fun n => n.kind = .caseClause ∨ n.kind = .defaultClause) := by
  unfold clause
  refine .skip fun start => .bind (clauseLabel_yields hr) fun ⟨kind, test⟩ hl => .skip fun _ => ?_
  refine .skip fun bodyStart => .bind (.statements _ (hr .statement)) fun body hb => ?_
  have hblock (span : Span) : (Node.of .block span body).As (·.kind = .block) :=
    ⟨rfl, .mk (fun n hn => (hb n hn).1) fun n hn => (hb n hn).2⟩
  refine .bind (yields_node hblock) fun b hb => yields_node fun span => ?_
  rcases hl with ⟨rfl, rfl⟩ | ⟨rfl, e, rfl, he⟩
  · exact ⟨.inr rfl, .mk ⟨hb.1, trivial⟩ (by simp [hb.2])⟩
  · exact ⟨.inl rfl, .mk ⟨he.1, hb.1, trivial⟩ (by simp [he.2, hb.2])⟩

lemma clauseTurn_yields :
    Yields (clauseTurn readers) fun u =>
      ∀ n ∈ u.items, n.As fun n => n.kind = .caseClause ∨ n.kind = .defaultClause := by
  unfold clauseTurn
  refine .skip fun _ => .either (yields_pure (by simp [Turn.items])) ?_
  exact .bind (clause_yields hr) fun n hn => yields_pure (by simpa [Turn.items] using hn)

lemma switchStatement_yields : Yields (switchStatement readers) (As IsStatement) := by
  unfold switchStatement
  refine .skip fun keyword => .skip fun _ => .bind (expression_yields hr) fun value hv => ?_
  refine .skip fun _ => .skip fun _ => ?_
  refine .bind (.repeatedly (clauseTurn_yields hr)) fun clauses hc => ?_
  refine .skip fun _ => yields_node fun span => as_statement rfl ⟨hv.1, fun n hn => (hc n hn).1⟩ ?_
  intro n hn
  rcases List.mem_cons.mp hn with rfl | hn
  · exact hv.2
  · exact (hc n hn).2

lemma catchParameter_yields :
    Yields (catchParameter readers) (As fun n => n.IsTarget ∨ n.kind = .empty) := by
  unfold catchParameter
  refine .skip fun _ => .either ?_ ?_
  · refine .bind (bindingTarget_yields hr) fun target ht => .skip fun _ => ?_
    exact yields_pure (ht.mono .inl)
  · exact absent_yields.mono fun n hn => hn.mono .inr

lemma catchClause_yields : Yields (catchClause readers) (As (·.kind = .catchClause)) := by
  unfold catchClause
  refine .skip fun keyword => .bind (catchParameter_yields hr) fun parameter hp => ?_
  refine .bind (block_yields hr) fun body hb => yields_node fun span => ?_
  exact ⟨rfl, .mk ⟨hp.1, hb.1, trivial⟩ (by simp [hp.2, hb.2])⟩

lemma handler_yields (isThere : Bool) :
    Yields (handler readers isThere) (As fun n => n.kind = .catchClause ∨ n.kind = .empty) := by
  unfold handler
  refine .either ((catchClause_yields hr).mono fun n hn => hn.mono .inl) ?_
  exact absent_yields.mono fun n hn => hn.mono .inr

lemma finalizer_yields :
    Yields (finalizer readers) fun l => l = [] ∨ ∃ n, l = [n] ∧ n.As (·.kind = .block) := by
  unfold finalizer
  refine .skip fun _ => .either ?_ (yields_pure (.inl rfl))
  exact .bind (block_yields hr) fun n hn => yields_pure (.inr ⟨n, rfl, hn⟩)

lemma tryStatement_yields : Yields (tryStatement readers) (As IsStatement) := by
  unfold tryStatement
  refine .skip fun keyword => .bind (block_yields hr) fun body hb => .skip fun hasHandler => ?_
  refine .bind (handler_yields hr hasHandler) fun h hh => .bind (finalizer_yields hr) fun l hl => ?_
  refine .either (yields_node fun span => ?_) yields_failHere
  rcases hl with rfl | ⟨final, rfl, hf⟩
  · exact as_statement rfl (.inl ⟨hb.1, hh.1, trivial⟩) (by simp [hb.2, hh.2])
  · exact as_statement rfl (.inr ⟨hb.1, hh.1, hf.1, trivial⟩) (by simp [hb.2, hh.2, hf.2])

/-! ### Jumps and all statements -/

lemma returnValue_yields : Yields (returnValue readers) OptionalValue := by
  unfold returnValue
  refine .skip fun _ => .either (yields_pure (.inl rfl)) ?_
  exact .bind (expression_yields hr) fun value hv => yields_pure (.inr ⟨value, rfl, hv⟩)

lemma returnStatement_yields : Yields (returnStatement readers) (As IsStatement) := by
  unfold returnStatement
  refine .skip fun keyword => .bind (returnValue_yields hr) fun l hl => .skip fun _ => ?_
  refine yields_node fun span => ?_
  rcases hl with rfl | ⟨value, rfl, hv⟩
  · exact as_statement rfl trivial (by simp)
  · exact as_statement rfl hv.1 (by simp [hv.2])

lemma throwStatement_yields : Yields (throwStatement readers) (As IsStatement) := by
  unfold throwStatement
  refine .skip fun keyword => .skip fun _ => .either yields_failHere ?_
  refine .bind (expression_yields hr) fun value hv => .skip fun _ => yields_node fun span => ?_
  exact as_statement rfl ⟨hv.1, trivial⟩ (by simp [hv.2])

omit hr in
lemma jump_yields {kind : NodeKind} (hk : kind = .breakStmt ∨ kind = .continueStmt) :
    Yields (jump kind) (As IsStatement) := by
  unfold jump
  refine .skip fun keyword => .skip fun label => .skip fun _ => yields_extended fun span => ?_
  rcases hk with rfl | rfl
  · exact ⟨rfl, .mk trivial (by simp)⟩
  · exact ⟨rfl, .mk trivial (by simp)⟩

lemma labeled_yields : Yields (labeled readers) (As IsStatement) := by
  unfold labeled
  refine .skip fun label => .skip fun _ => .bind (hr .statement) fun body hb => ?_
  exact yields_extended fun span => ⟨rfl, .mk ⟨hb.1, trivial⟩ (by simp [hb.2])⟩

lemma expressionStatement_yields : Yields (expressionStatement readers) (As IsStatement) := by
  unfold expressionStatement
  refine .skip fun start => .bind (expression_yields hr) fun e he => .skip fun _ => ?_
  exact yields_node fun span => as_statement rfl ⟨he.1, trivial⟩ (by simp [he.2])

omit hr in
lemma emptyStatement_yields : Yields emptyStatement (As IsStatement) := by
  unfold emptyStatement
  exact .skip fun t => yields_pure (as_statement rfl trivial (by simp))

omit hr in
/-- Kinds of statements that are told by their kind alone. -/
lemma yields_isStatement {p : Reader Node} {kind : NodeKind} (hk : kind.isStatement)
    (h : Yields p (As (·.kind = kind))) : Yields p (As IsStatement) :=
  h.mono fun n hn => hn.mono fun h => by rw [IsStatement, h]; exact hk

lemma wordStatement_yields : Yields (wordStatement readers) (As IsStatement) := by
  unfold wordStatement
  refine .skip fun _ => .either (labeled_yields hr) (.skip fun _ => .either ?_ ?_)
  · exact yields_isStatement rfl (asyncFunction_yields hr false)
  · exact expressionStatement_yields hr

lemma statement_yields : Yields (statement readers) (As IsStatement) := by
  unfold statement
  refine .skip fun t => ?_
  split
  case h_1 => exact yields_isStatement rfl (block_yields hr)
  case h_2 | h_3 | h_4 => exact declarationStatement_yields hr rfl
  case h_5 => exact yields_isStatement rfl (function_yields hr false {})
  case h_6 => exact yields_isStatement rfl (classDefinition_yields hr false)
  case h_7 => exact ifStatement_yields hr
  case h_8 => exact whileStatement_yields hr
  case h_9 => exact doWhileStatement_yields hr
  case h_10 => exact forStatement_yields hr
  case h_11 => exact switchStatement_yields hr
  case h_12 => exact tryStatement_yields hr
  case h_13 => exact returnStatement_yields hr
  case h_14 => exact throwStatement_yields hr
  case h_15 => exact jump_yields (.inl rfl)
  case h_16 => exact jump_yields (.inr rfl)
  case h_17 => exact emptyStatement_yields
  case h_18 => exact wordStatement_yields hr
  case h_19 => exact expressionStatement_yields hr

end ModuleLint.Grammar
