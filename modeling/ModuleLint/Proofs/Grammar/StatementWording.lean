import ModuleLint.Proofs.Grammar.ExpressionWording

/-!
The names and properties in statements and scripts.

The recursion of the grammar is closed here, so what holds of the readers that are given readers
holds of every node of a script.
-/

namespace ModuleLint.Grammar

open Reader Node

section Readers

variable {P : Token → Prop} {readers : Readers} {start : Span}

variable [∀ nt, Regular (readers nt)] (hr : WordAll P readers)
include hr

/-! ### Declarations -/

lemma initializer_words : Words P (initializer readers) fun l => ∀ n ∈ l, n.WordedBy P := by
  unfold initializer
  refine .skip fun _ => .either (.bind (assignment_words hr) fun value hv => ?_) ?_
  · exact words_pure (List.forall_mem_singleton.mpr hv)
  · exact words_pure (List.forall_mem_nil _)

lemma declarator_words : Words P (declarator readers) (WordedBy P) := by
  unfold declarator
  refine .skip fun start => .skip fun _ => .either (.bind (pattern_words hr) fun p hp => ?_) ?_
  · refine .bind (initializer_words hr) fun value hv => words_node rfl ?_
    exact List.forall_mem_cons.mpr ⟨hp, hv⟩
  · refine .bind words_expect fun name hn => .bind (initializer_words hr) fun value hv => ?_
    exact words_extended (wordedBy_name hn.1 hn.2 hv)

lemma declaratorTurn_words :
    Words P (declaratorTurn readers) fun u => ∀ n ∈ u.items, n.WordedBy P := by
  unfold declaratorTurn
  refine .bind (declarator_words hr) fun d hd => .skip fun _ => ?_
  exact .either (words_pure (List.forall_mem_singleton.mpr hd))
    (words_pure (List.forall_mem_singleton.mpr hd))

lemma declaration_words {kind : NodeKind} (hk : kind.isWord = false) :
    Words P (declaration readers kind) (WordedBy P) := by
  unfold declaration
  refine .skip fun keyword => .bind (.repeatedly (declaratorTurn_words hr)) fun l hl => ?_
  exact words_node hk hl

lemma declarationStatement_words {kind : NodeKind} (hk : kind.isWord = false) :
    Words P (declarationStatement readers kind) (WordedBy P) := by
  unfold declarationStatement
  exact .bind (declaration_words hr hk) fun d hd => .skip fun _ => words_extended hd

/-! ### Branches and loops -/

lemma condition_words {opening : Expectation} :
    Words P (condition readers opening) (WordedBy P) := by
  unfold condition
  exact .skip fun _ => .bind (expression_words hr) fun c hc => .skip fun _ => words_pure hc

lemma elseBranch_words : Words P (elseBranch readers) fun l => ∀ n ∈ l, n.WordedBy P := by
  unfold elseBranch
  refine .skip fun _ => .either (.bind (hr .statement) fun body hb => ?_) ?_
  · exact words_pure (List.forall_mem_singleton.mpr hb)
  · exact words_pure (List.forall_mem_nil _)

lemma ifStatement_words : Words P (ifStatement readers) (WordedBy P) := by
  unfold ifStatement
  refine .skip fun keyword => .bind (condition_words hr) fun c hc => ?_
  refine .bind (hr .statement) fun whenTrue ht => .bind (elseBranch_words hr) fun whenFalse hf => ?_
  exact words_node rfl (List.forall_mem_cons.mpr ⟨hc, List.forall_mem_cons.mpr ⟨ht, hf⟩⟩)

lemma whileStatement_words : Words P (whileStatement readers) (WordedBy P) := by
  unfold whileStatement
  refine .skip fun keyword => .bind (condition_words hr) fun c hc => ?_
  exact .bind (hr .statement) fun body hb => words_node rfl (wordedBy_pair hc hb)

lemma doWhileStatement_words : Words P (doWhileStatement readers) (WordedBy P) := by
  unfold doWhileStatement
  refine .skip fun keyword => .bind (hr .statement) fun body hb => .skip fun _ => ?_
  refine .bind (condition_words hr) fun c hc => .skip fun _ => ?_
  exact words_node rfl (wordedBy_pair hb hc)

omit hr [∀ nt, Regular (readers nt)] in
lemma absent_words : Words P absent (WordedBy P) := by
  unfold absent
  exact .skip fun span => words_pure wordedBy_absent

omit hr [∀ nt, Regular (readers nt)] in
lemma isWord_of_declarationKind {t : TokenKind} {kind : NodeKind}
    (h : declarationKind? t = some kind) : kind.isWord = false := by
  cases t <;> cases h <;> rfl

lemma forStart_words : Words P (forStart readers) (WordedBy P) := by
  unfold forStart
  refine .withIn false (.current fun t _ => ?_)
  split
  case h_1 kind declares => exact (declaration_words hr (isWord_of_declarationKind declares)).at
  case h_2 => exact (Words.either absent_words (expression_words hr)).at

lemma forBody_words : Words P (forBody readers) (WordedBy P) := by
  unfold forBody
  exact .skip fun _ => hr .statement

lemma forPart_words {close : TokenKind} : Words P (forPart readers close) (WordedBy P) := by
  unfold forPart
  exact .skip fun _ => .either absent_words (expression_words hr)

lemma forSubject_words {isIn : Bool} : Words P (forSubject readers isIn) (WordedBy P) :=
  .either (expression_words hr) (assignment_words hr)

lemma forEach_words {target : Node} (ht : target.WordedBy P) :
    Words P (forEach readers start target) (WordedBy P) := by
  unfold forEach
  refine .skip fun keyword => .bind (forSubject_words hr) fun subject hs => ?_
  refine .bind (forBody_words hr) fun body hb => words_node ?_ (wordedBy_triple ht hs hb)
  split <;> rfl

lemma forClassic_words {init : Node} (hi : init.WordedBy P) :
    Words P (forClassic readers start init) (WordedBy P) := by
  unfold forClassic
  refine .skip fun _ => .bind (forPart_words hr) fun c hc => .skip fun _ => ?_
  refine .bind (forPart_words hr) fun update hu => .bind (forBody_words hr) fun body hb => ?_
  exact words_node rfl (List.forall_mem_cons.mpr ⟨hi, wordedBy_triple hc hu hb⟩)

lemma forStatement_words : Words P (forStatement readers) (WordedBy P) := by
  unfold forStatement
  refine .skip fun keyword => .skip fun _ => .bind (forStart_words hr) fun init hi => ?_
  exact .skipLook fun _ => .either (forEach_words hr hi) (forClassic_words hr hi)

/-! ### Switch and try -/

lemma clauseLabel_words : Words P (clauseLabel readers) fun label =>
    label.1.isWord = false ∧ ∀ n ∈ label.2, n.WordedBy P := by
  unfold clauseLabel
  refine .skip fun _ => .either (.bind (expression_words hr) fun test ht => ?_) ?_
  · exact words_pure ⟨rfl, List.forall_mem_singleton.mpr ht⟩
  · exact .skip fun _ => .either (words_pure ⟨rfl, List.forall_mem_nil _⟩) words_failHere

lemma clause_words : Words P (clause readers) (WordedBy P) := by
  unfold clause
  refine .skip fun start => .bind (clauseLabel_words hr) fun (kind, test) ⟨hk, ht⟩ => ?_
  refine .skip fun _ => .skip fun bodyStart => ?_
  refine .bind (.statements _ (hr .statement)) fun body hb => ?_
  refine .bind (words_node rfl hb) fun block h => words_node hk ?_
  exact List.forall_mem_append.mpr ⟨ht, List.forall_mem_singleton.mpr h⟩

lemma clauseTurn_words :
    Words P (clauseTurn readers) fun u => ∀ n ∈ u.items, n.WordedBy P := by
  unfold clauseTurn
  refine .skip fun _ => .either (words_pure (List.forall_mem_nil _)) ?_
  exact .bind (clause_words hr) fun n hn => words_pure (List.forall_mem_singleton.mpr hn)

lemma switchStatement_words : Words P (switchStatement readers) (WordedBy P) := by
  unfold switchStatement
  refine .skip fun keyword => .skip fun _ => .bind (expression_words hr) fun value hv => ?_
  refine .skip fun _ => .skip fun _ => .bind (.repeatedly (clauseTurn_words hr)) fun l hl => ?_
  exact .skip fun _ => words_node rfl (List.forall_mem_cons.mpr ⟨hv, hl⟩)

lemma catchParameter_words : Words P (catchParameter readers) (WordedBy P) := by
  unfold catchParameter
  refine .skip fun _ => .either (.bind (bindingTarget_words hr) fun target ht => ?_) absent_words
  exact .skip fun _ => words_pure ht

lemma catchClause_words : Words P (catchClause readers) (WordedBy P) := by
  unfold catchClause
  refine .skip fun keyword => .bind (catchParameter_words hr) fun parameter hp => ?_
  exact .bind (block_words hr) fun body hb => words_node rfl (wordedBy_pair hp hb)

lemma handler_words {isThere : Bool} : Words P (handler readers isThere) (WordedBy P) :=
  .either (catchClause_words hr) absent_words

lemma finalizer_words : Words P (finalizer readers) fun l => ∀ n ∈ l, n.WordedBy P := by
  unfold finalizer
  refine .skip fun _ => .either (.bind (block_words hr) fun body hb => ?_) ?_
  · exact words_pure (List.forall_mem_singleton.mpr hb)
  · exact words_pure (List.forall_mem_nil _)

lemma tryStatement_words : Words P (tryStatement readers) (WordedBy P) := by
  unfold tryStatement
  refine .skip fun keyword => .bind (block_words hr) fun body hb => .skip fun hasHandler => ?_
  refine .bind (handler_words hr) fun handler hh => .bind (finalizer_words hr) fun final hf => ?_
  refine .either (words_node rfl ?_) words_failHere
  exact List.forall_mem_cons.mpr ⟨hb, List.forall_mem_cons.mpr ⟨hh, hf⟩⟩

/-! ### Jumps -/

lemma returnValue_words : Words P (returnValue readers) fun l => ∀ n ∈ l, n.WordedBy P := by
  unfold returnValue
  refine .skipLook fun _ => .either (words_pure (List.forall_mem_nil _)) ?_
  exact .bind (expression_words hr) fun value hv => words_pure (List.forall_mem_singleton.mpr hv)

lemma returnStatement_words : Words P (returnStatement readers) (WordedBy P) := by
  unfold returnStatement
  refine .skip fun keyword => .bind (returnValue_words hr) fun value hv => ?_
  exact .skip fun _ => words_node rfl hv

lemma throwStatement_words : Words P (throwStatement readers) (WordedBy P) := by
  unfold throwStatement
  refine .skip fun keyword => .skipLook fun _ => .either words_failHere ?_
  refine .bind (expression_words hr) fun value hv => .skip fun _ => words_node rfl ?_
  exact List.forall_mem_singleton.mpr hv

omit hr [∀ nt, Regular (readers nt)] in
lemma jump_words {kind : NodeKind} (hk : kind.isWord = false) :
    Words P (jump kind) (WordedBy P) := by
  unfold jump
  refine .skip fun keyword => .skip fun label => .skip fun _ => ?_
  exact words_extended (wordedBy_mk hk (List.forall_mem_nil _))

/-! ### All statements -/

lemma labeled_words : Words P (labeled readers) (WordedBy P) := by
  unfold labeled
  refine .skip fun label => .skip fun _ => .bind (hr .statement) fun body hb => ?_
  exact words_extended (wordedBy_mk rfl (List.forall_mem_singleton.mpr hb))

lemma expressionStatement_words : Words P (expressionStatement readers) (WordedBy P) := by
  unfold expressionStatement
  refine .skip fun start => .bind (expression_words hr) fun e he => .skip fun _ => ?_
  exact words_node rfl (List.forall_mem_singleton.mpr he)

omit hr [∀ nt, Regular (readers nt)] in
lemma emptyStatement_words : Words P emptyStatement (WordedBy P) := by
  unfold emptyStatement
  exact .skip fun t => words_pure wordedBy_absent

lemma wordStatement_words : Words P (wordStatement readers) (WordedBy P) := by
  unfold wordStatement
  refine .skipLook fun _ => .either (labeled_words hr) (.skipLook fun _ => ?_)
  exact .either (asyncFunction_words hr) (expressionStatement_words hr)

lemma statement_words : Words P (statement readers) (WordedBy P) := by
  unfold statement
  refine .skipLook fun t => ?_
  split
  · exact block_words hr
  · exact declarationStatement_words hr rfl
  · exact declarationStatement_words hr rfl
  · exact declarationStatement_words hr rfl
  · exact function_words hr
  · exact classDefinition_words hr
  · exact ifStatement_words hr
  · exact whileStatement_words hr
  · exact doWhileStatement_words hr
  · exact forStatement_words hr
  · exact switchStatement_words hr
  · exact tryStatement_words hr
  · exact returnStatement_words hr
  · exact throwStatement_words hr
  · exact jump_words rfl
  · exact jump_words rfl
  · exact emptyStatement_words
  · exact wordStatement_words hr
  · exact expressionStatement_words hr

/-! ### The recursion -/

lemma production_words (nt : Nonterminal) : Words P (production readers nt) (WordedBy P) := by
  cases nt with
  | primary => exact primary_words hr
  | newExpression => exact newExpression_words hr
  | unary => exact unary_words hr
  | binary level => exact binary_words hr
  | assignment => exact assignment_words hr
  | expression => exact expression_words hr
  | bindingTarget => exact bindingTarget_words hr
  | bindingElement => exact bindingElement_words hr
  | statement => exact statement_words hr

end Readers

section Scripts

variable {P : Token → Prop}

lemma read_words (depth : Nat) : WordAll P (read depth) := by
  induction depth with
  | zero => exact fun nt => yields_stuck.words
  | succ depth ih => exact fun nt => production_words ih nt

/-- The names and properties of a script are tokens of it. -/
lemma script_words {name : Bytes} {tokens : List Token} {n : Node}
    (h : script name tokens = .ok n) (all : ∀ t ∈ tokens, P t) : n.WordedBy P := by
  obtain ⟨first, rest, body, t, rfl, run, clean, rfl⟩ := script_eq_ok h
  have each : ∀ c ∈ body, c.WordedBy P :=
    Words.statements [] (read_words _ .statement) _ body t run clean all
  exact wordedBy_mk rfl each

end Scripts

end ModuleLint.Grammar
