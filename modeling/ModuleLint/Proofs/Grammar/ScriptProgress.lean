import ModuleLint.Grammar.Script
import ModuleLint.Proofs.Grammar.StatementProgress

/-!
Progress of scripts.

At each depth the nonterminals take a token wherever fewer tokens are ahead than the depth, so a
script is read to the end of the text with its faults recorded.
-/

namespace ModuleLint.Grammar

open Reader

/-! ### Nonterminals and loops -/

lemma production_takes {n : Nat} {readers : Readers} (hr : TakeBelow n readers) :
    TakeBelow (n + 1) (production readers) := by
  intro nt
  cases nt with
  | primary => exact primary_takes hr
  | newExpression => exact newExpression_takes hr
  | unary => exact unary_takes hr
  | binary level => exact binary_takes hr
  | assignment => exact assignment_takes hr
  | expression => exact expression_takes hr
  | bindingTarget => exact bindingTarget_takes hr
  | bindingElement => exact bindingElement_takes hr
  | statement => exact statement_takes hr

lemma read_takes (depth : Nat) : TakeBelow depth (read depth) := by
  induction depth with
  | zero => exact fun _ s _ hn => absurd hn (by omega)
  | succ depth ih => exact production_takes ih

/-- One turn of each loop that collects items. -/
inductive LoopTurn (readers : Readers) : Reader Turn → Prop
  | statements (ends : List TokenKind) : LoopTurn readers (statementTurn (readers .statement) ends)
  | clauses : LoopTurn readers (clauseTurn readers)
  | members : LoopTurn readers (memberTurn readers)
  | declarators : LoopTurn readers (declaratorTurn readers)
  | parameters : LoopTurn readers (listTurn .rparen false (listElement readers))
  | arguments : LoopTurn readers (listTurn .rparen false (spreadable readers))
  | arrayLiteral : LoopTurn readers (listTurn .rbracket true (spreadable readers))
  | objectLiteral : LoopTurn readers (listTurn .rbrace false (objectProperty readers))
  | arrayPattern : LoopTurn readers (listTurn .rbracket true (listElement readers))
  | objectPattern : LoopTurn readers (listTurn .rbrace false (objectEntry readers))

/-- One turn of each loop that grows a tree to the left. -/
inductive GrowthTurn (readers : Readers) : (Node → Reader (Option Node)) → Prop
  | accesses (allowCall : Bool) : GrowthTurn readers (access readers allowCall)
  | operators (start : Span) (floor : Nat) : GrowthTurn readers (binaryTurn readers start floor)
  | commas (start : Span) : GrowthTurn readers (commaTurn readers start)

variable {n : Nat} {readers : Readers} (hr : TakeBelow n readers)
include hr

lemma loopTurn_turns {turn : Reader Turn} (h : LoopTurn readers turn) : Turns n turn := by
  cases h with
  | statements ends => exact statementTurn_turns (hr .statement)
  | clauses => exact clauseTurn_turns hr
  | members => exact memberTurn_turns hr
  | declarators => exact (declaratorTurn_turns hr).down
  | parameters => exact listTurn_turns (listElement_takes hr)
  | arguments => exact listTurn_turns (spreadable_takes hr)
  | arrayLiteral => exact listTurn_turns (spreadable_takes hr)
  | objectLiteral => exact listTurn_turns (objectProperty_takes hr)
  | arrayPattern => exact listTurn_turns (listElement_takes hr)
  | objectPattern => exact listTurn_turns (objectEntry_takes hr)

lemma growthTurn_grows {turn : Node → Reader (Option Node)} (h : GrowthTurn readers turn)
    (m : Node) : Grows n (turn m) := by
  cases h with
  | accesses allowCall => exact (access_grows hr m).down
  | operators start floor => exact (binaryTurn_grows hr m).down
  | commas start => exact (commaTurn_grows hr m).down

omit hr

/-! ### Whole scripts -/

lemma statements_toEnd {statement : Reader Node} (h : Takes n statement) {s : ReaderState}
    (hs : EndsOnce s.tokens) (hn : s.ahead.length < n) :
    ∃ l t, statements statement [] s = .ok l t ∧ t.tokens <:+ s.tokens ∧ t.current.kind = .eof := by
  have atMost : ∀ bound s, EndsOnce s.tokens → s.ahead.length < bound → s.ahead.length < n →
      ∃ l t, repeatedAtMost (statementTurn statement []) bound s = .ok l t ∧
        t.tokens <:+ s.tokens ∧ t.current.kind = .eof := by
    intro bound
    induction bound with
    | zero => exact fun _ _ hb => absurd hb (by omega)
    | succ bound ih =>
      intro s hs hb hn
      unfold repeatedAtMost
      by_cases ht : s.current.kind = .eof
      · rw [bind_of_ok (statementTurn_atEnd ht)]
        exact ⟨[], s, rfl, List.suffix_rfl, ht⟩
      · obtain ⟨items, t, turn, suffix, taken⟩ := statementTurn_inside h hs hn ht
        have ends : EndsOnce t.tokens := hs.suffix suffix (List.cons_ne_nil _ _)
        obtain ⟨more, u, rest, suffix', atEnd⟩ := ih t ends (by omega) (by omega)
        rw [bind_of_ok turn]
        refine ⟨items ++ more, u, ?_, suffix'.trans suffix, atEnd⟩
        exact bind_of_ok rest
  exact atMost _ s hs (Nat.lt_succ_self _) hn

lemma scriptReader_toEnd {depth : Nat} {name : Bytes} {s : ReaderState} (hs : EndsOnce s.tokens)
    (hd : s.ahead.length < depth) :
    ∃ n t, scriptReader depth name s = .ok n t ∧ t.tokens <:+ s.tokens ∧ t.current.kind = .eof := by
  obtain ⟨body, t, hb, suffix, atEnd⟩ := statements_toEnd (read_takes depth .statement) hs hd
  refine ⟨⟨.script, name, s.current.span.merge t.current.span, {}, body⟩, t, ?_, suffix, atEnd⟩
  unfold scriptReader
  exact bind_of_ok hb

/-- **Reading ends and makes progress.** A script is read up to the end of the text, and is a tree
exactly if no fault was recorded. From each place in the text, if the depth is above the number of
tokens ahead, no reader is stuck or passes the end; what it reads took a token, and so did each turn
of a loop that is not the last. -/
theorem script_progress (name : Bytes) {first : Token} {rest : List Token}
    (h : EndsOnce (first :: rest)) :
    (∃ n t, scriptReader (rest.length + 2) name (start first rest) = .ok n t ∧
      t.current.kind = .eof ∧ t.ahead = [] ∧ t.tokens <:+ first :: rest ∧
      script name (first :: rest) = if t.faults = [] then .ok n else .error t.faults) ∧
    ∀ s depth, s.tokens <:+ first :: rest → s.ahead.length < depth →
      (step s).tokens <:+ s.tokens ∧ (s.current.kind = .eof → step s = s) ∧
      (∀ nt, (read depth nt s).Moves (fun _ => True) s) ∧
      (∀ turn, LoopTurn (read depth) turn →
        (turn s).Moves (fun u => ∃ items, u = .more items) s) ∧
      ∀ turn m, GrowthTurn (read depth) turn → (turn m s).Moves (fun r => r.isSome) s := by
  constructor
  · have few : (start first rest).ahead.length < rest.length + 2 := by
      change rest.length < _
      omega
    obtain ⟨n, t, hr, suffix, atEnd⟩ := @scriptReader_toEnd _ name (start first rest) h few
    have ends : EndsOnce t.tokens := h.suffix suffix (List.cons_ne_nil _ _)
    refine ⟨n, t, hr, atEnd, EndsOnce.eq_nil ends atEnd, suffix, ?_⟩
    simp only [script, hr, List.isEmpty_iff]
  · intro s depth hs hd
    have ends : EndsOnce s.tokens := h.suffix hs (List.cons_ne_nil _ _)
    have hr := read_takes depth
    refine ⟨step_suffix ends, step_atEnd, fun nt => hr nt s ends hd trivial, ?_, ?_⟩
    · exact fun turn ht => loopTurn_turns hr ht s ends hd trivial
    · exact fun turn m ht => growthTurn_grows hr ht m s ends hd trivial

/-- An invalid token and an open parenthesis: two statements with a fault, both of them skipped. -/
theorem script_progress_faulty :
    let first : Token := ⟨.error, Span.none, [], [], false⟩
    let rest : List Token := [TokenKind.semi, .lparen, .eof].map (⟨·, Span.none, [], [], false⟩)
    EndsOnce (first :: rest) ∧ ∃ n t, scriptReader 5 [] (start first rest) = .ok n t ∧
      t.current.kind = .eof ∧ t.faults.length = 2 ∧
      script [] (first :: rest) = .error t.faults ∧
      ∀ nt, (read 5 nt (start first rest)).Moves (fun _ => True) (start first rest) := by
  intro first rest
  have h : EndsOnce (first :: rest) := by simp [EndsOnce, first, rest]
  obtain ⟨⟨n, t, hr, atEnd, -, -, hs⟩, moves⟩ := script_progress [] h
  let count : Reply Node → Nat := fun | .ok _ t => t.faults.length | _ => 0
  have two : t.faults.length = 2 := by
    have counted := congrArg count hr
    exact counted.symm.trans (by decide +kernel)
  have few : (start first rest).ahead.length < 5 := by decide
  refine ⟨h, n, t, hr, atEnd, two, ?_, (moves _ 5 List.suffix_rfl few).2.2.1⟩
  rw [hs, if_neg]
  intro none
  rw [none] at two
  cases two

end ModuleLint.Grammar
