import ModuleLint.Proofs.Grammar.Concatenation
import ModuleLint.Proofs.Grammar.ExpressionHalting
import ModuleLint.Proofs.Grammar.ScriptRespan

/-!
Redundant parentheses.

An expression in parentheses is the expression, up to spans. Its tokens are read as before up to the
closing parenthesis; as all its brackets are closed, no arrow function starts at the opening one;
and behind the closing one nothing goes on.
-/

namespace ModuleLint.Grammar

open Reader

variable {readers : Readers} {l m : List Token} {n : Node} {s t u : ReaderState} {depth : Nat}

/-! ### No arrow behind -/

/-- The search for an arrow passes over tokens that close all brackets that they open. -/
lemma closesBeforeArrow_enclosed {i j : Nat} (nested : depthAfter i l = some j) :
    closesBeforeArrow (i + 1) (l ++ m) = closesBeforeArrow (j + 1) m := by
  induction l generalizing i with
  | nil =>
    cases nested
    rfl
  | cons t l ih =>
    obtain ⟨d, behind, nested⟩ := Option.bind_eq_some_iff.mp nested
    rw [List.cons_append, closesBeforeArrow]
    split
    case h_1 kind | h_2 kind | h_3 kind =>
      rw [kind] at behind
      cases behind
      exact ih nested
    case h_4 kind | h_5 kind | h_6 kind =>
      rw [kind, TokenKind.depthAfter] at behind
      split at behind
      · cases behind
      next inner =>
        cases behind
        rw [if_neg (by omega), show i + 1 - 1 = i - 1 + 1 by omega]
        exact ih nested
    case h_7 kind =>
      rw [kind] at behind
      cases behind
    case h_8 =>
      have same : d = i := by
        unfold TokenKind.depthAfter at behind
        split at behind <;> simp_all
      exact ih (same ▸ nested)

/-- Parentheses around closed brackets, with no arrow behind them, start no arrow function. -/
lemma startsArrow_enclosed {opening closing e : Token} (opens : opening.kind = .lparen)
    (closes : closing.kind = .rparen) (ends : e.kind = .eof) (nested : depthAfter 0 l = some 0) :
    startsArrow (opening :: (l ++ [closing, e])) = false := by
  rw [startsArrow, closesBeforeArrow, opens]
  change (true && closesBeforeArrow (0 + 1) (l ++ [closing, e])) = false
  rw [closesBeforeArrow_enclosed nested, closesBeforeArrow, closes]
  simp [ends]

/-! ### Nothing behind -/

lemma growing_last {turn : Node → Reader (Option Node)} (last : turn n s = .ok none s) :
    growing turn n s = .ok n s := bind_of_ok last

lemma isAt_of_ne {kind : TokenKind} (other : s.current.kind ≠ kind) :
    isAt kind s = .ok false s := congrArg (Reply.ok · s) (beq_false_of_ne other)

lemma accept_of_ne {kind : TokenKind} (other : s.current.kind ≠ kind) :
    accept kind s = .ok false s := bind_of_ok (isAt_of_ne other)

lemma accesses_atEnd (allowCall : Bool) (ends : s.current.kind = .eof) :
    accesses readers allowCall n s = .ok n s := by
  have other {kind : TokenKind} (h : kind ≠ .eof) : s.current.kind ≠ kind := by
    rw [ends]
    exact h.symm
  refine growing_last ?_
  refine (bind_of_ok (accept_of_ne (other (by decide)))).trans ?_
  refine (bind_of_ok (accept_of_ne (other (by decide)))).trans ?_
  refine (bind_of_ok (isAt_of_ne (other (by decide)))).trans ?_
  rw [if_neg (by simp)]
  rfl

lemma afterOperand_atEnd (start : Span) (ends : s.current.kind = .eof) :
    afterOperand start n s = .ok n s := by
  refine (bind_of_ok rfl).trans ?_
  rw [if_neg (by simp [ends])]
  rfl

lemma binaryTurn_atEnd (start : Span) (floor : Nat) (ends : s.current.kind = .eof) :
    binaryTurn readers start floor n s = .ok none s := by
  have loose : level s.allowsIn s.current.kind ≤ floor := by
    rw [ends]
    exact Nat.zero_le floor
  refine (bind_of_ok rfl).trans ?_
  rw [if_pos loose]
  rfl

lemma commaTurn_atEnd (start : Span) (ends : s.current.kind = .eof) :
    commaTurn readers start n s = .ok none s :=
  bind_of_ok (accept_of_ne (by rw [ends]; decide))

/-! ### Parentheses around everything -/

lemma isWord_lparen (opens : s.current.kind = .lparen) (word : Bytes) :
    isWord word s.current = false := by
  rw [isWord, opens]
  rfl

/-- Parentheses with nothing behind them are an operand. -/
lemma operand_of_parenthesized (opens : s.current.kind = .lparen)
    (read : parenthesized readers s = .ok n t) (ends : t.current.kind = .eof) :
    operand readers s = .ok n t := by
  have primary : primary readers s = .ok n t := by
    refine (bind_of_ok rfl).trans ?_
    rw [if_neg (by rw [isAsyncFunction, isWord_lparen opens]; exact Bool.false_ne_true)]
    refine (bind_of_ok rfl).trans ?_
    rw [opens]
    exact read
  have base : operandBase readers s = .ok n t :=
    (bind_of_ok (isAt_of_ne (by rw [opens]; decide))).trans primary
  refine (bind_of_ok rfl).trans ?_
  refine (bind_of_ok base).trans ((bind_of_ok (accesses_atEnd true ends)).trans ?_)
  exact afterOperand_atEnd _ ends

/-- Parentheses with nothing behind them are an expression. -/
lemma expression_of_parenthesized (opens : s.current.kind = .lparen)
    (noArrow : isArrow s = false) (read : parenthesized readers s = .ok n t)
    (ends : t.current.kind = .eof) : expression readers s = .ok n t := by
  have unary : unary readers s = .ok n t := by
    refine (bind_of_ok rfl).trans ?_
    rw [if_neg (by rw [opens]; decide), if_neg (by rw [opens]; decide)]
    exact operand_of_parenthesized opens read ends
  have binary : binary readers 0 s = .ok n t := by
    refine (bind_of_ok rfl).trans ((bind_of_ok unary).trans ?_)
    exact growing_last (binaryTurn_atEnd _ 0 ends)
  have conditional : conditional readers s = .ok n t := by
    refine (bind_of_ok rfl).trans ((bind_of_ok binary).trans ?_)
    exact bind_of_ok (accept_of_ne (by rw [ends]; decide))
  have noAsync : isAsyncArrow s = false := by
    rw [isAsyncArrow, isWord_lparen opens, Bool.false_and, Bool.false_and]
  have noOperator : t.current.kind.isAssignmentOperator = false := by
    rw [ends]
    rfl
  have assignment : assignment readers s = .ok n t := by
    refine (bind_of_ok rfl).trans ?_
    rw [if_neg (Bool.eq_false_iff.mp noArrow)]
    refine (bind_of_ok rfl).trans ?_
    rw [if_neg (Bool.eq_false_iff.mp noAsync)]
    refine (bind_of_ok rfl).trans ((bind_of_ok conditional).trans ?_)
    refine (bind_of_ok rfl).trans ?_
    rw [if_neg (Bool.eq_false_iff.mp noOperator)]
    rfl
  refine (bind_of_ok rfl).trans ((bind_of_ok assignment).trans ?_)
  exact growing_last (commaTurn_atEnd _ ends)

/-! ### Tokens in parentheses -/

/-- What is read up to the end is read from any state before the same tokens, to any greater depth,
and closes all its brackets. -/
lemma read_again {depth' : Nat} (deeper : depth ≤ depth')
    (run : read depth .expression s = .ok n t) (clean : t.faults = [])
    (ends : t.current.kind = .eof) (tokens : u.tokens = s.tokens)
    (allowsIn : u.allowsIn = s.allowsIn) (clean' : u.faults = []) :
    s.Encloses t ∧ ∃ t', read depth' .expression u = .ok n t' ∧ t'.tokens = t.tokens ∧
      t'.faults = [] := by
  obtain ⟨leads, runs⟩ := read_survives .keeping deeper .expression 0 s n t trivial run clean
  have ran := runs ⟨t.current, List.mem_cons_self, ends⟩ (Edit.known_respanning nofun)
  have margin : Edit.keeping.Margin .loose [] t := (Edit.margin_respanning ends).into rfl
  have begins : Edit.keeping.Related .fresh ([] ++ []) s u := by
    refine ⟨?_, allowsIn, clean', fun known => absurd rfl known⟩
    rw [List.append_nil, Edit.apply_keeping, tokens]
  obtain ⟨t', run', related⟩ := ran.edited leads.picks_nil margin begins
  refine ⟨ran.nested, t', run'.trans ?_, ?_, related.faults⟩
  · exact congrArg (Reply.ok · t') (Node.respan_keep n)
  · rw [related.tokens, Edit.apply_keeping]

/-- Spans do not matter to what is read. -/
lemma read_of_respan {nt : Nonterminal} (same : u.respan .forget = s.respan .forget)
    (run : read depth nt s = .ok n t) : ∃ m v, read depth nt u = .ok m v ∧
      m.respan .forget = n.respan .forget ∧ v.respan .forget = t.respan .forget := by
  have carried := read_carries .forget depth nt s
  rw [← same, run] at carried
  exact Respans.ok (read_carries .forget depth nt) carried

/-- What stands between parentheses is read with `in` as an operator. -/
lemma parenthesized_of_inner {closing e : Token} (allows : (step s).allowsIn = true)
    (run : readers .expression (step s) = .ok n t) (tokens : t.tokens = [closing, e])
    (closes : closing.kind = .rparen) :
    ∃ v, parenthesized readers s = .ok n v ∧ v.tokens = [e] ∧ v.faults = t.faults := by
  have begins : { step s with allowsIn := true } = step s := by rw [← allows]
  have inner : withIn true (readers .expression) (step s) =
      .ok n { t with allowsIn := (step s).allowsIn } :=
    withIn_eq_ok.mpr ⟨t, begins ▸ run, rfl⟩
  have here : t.current.kind = .rparen := by
    rw [(List.cons.inj tokens).1, closes]
  refine ⟨step { t with allowsIn := (step s).allowsIn }, ?_, ?_, faults_step _⟩
  · refine (bind_of_ok rfl).trans ((bind_of_ok inner).trans ?_)
    exact bind_of_ok (expect_of_kind here)
  · exact tokens_step_cons tokens (by rw [closes]; decide)

lemma ne_eof_of_nested {i j : Nat} (nested : depthAfter i l = some j) :
    ∀ t ∈ l, t.kind ≠ .eof := by
  induction l generalizing i with
  | nil => exact List.forall_mem_nil _
  | cons t l ih =>
    obtain ⟨d, behind, nested⟩ := Option.bind_eq_some_iff.mp nested
    exact List.forall_mem_cons.mpr ⟨ne_eof_of_depthAfter behind, ih nested⟩

/-- Tokens that are an expression are the same expression in parentheses. -/
lemma read_parenthesized {first e opening closing e' : Token} {rest : List Token}
    (whole : first :: rest = l ++ [e]) (ends : e.kind = .eof)
    (run : readFrom .expression first rest = .ok n t) (atEnd : t.current.kind = .eof)
    (all : t.ahead = []) (clean : t.faults = []) (opens : opening.kind = .lparen)
    (closes : closing.kind = .rparen) (ends' : e'.kind = .eof) :
    ∃ u, readFrom .expression opening (l ++ [closing, e']) = .ok n u ∧
      u.current.kind = .eof ∧ u.ahead = [] ∧ u.faults = [] := by
  have length : rest.length = l.length := by simpa using congrArg List.length whole
  obtain ⟨x, more, split⟩ : ∃ x more, l ++ [closing, e'] = x :: more := by
    cases l <;> exact ⟨_, _, rfl⟩
  have opens' : opening.kind ≠ .eof := by
    rw [opens]
    decide
  -- the same tokens behind the opening parenthesis
  obtain ⟨⟨taken, tokens, nested⟩, t', run', left, clean'⟩ :=
    read_again (u := { start first rest with previous := opening })
      (show rest.length + 2 ≤ l.length + 3 by omega) run clean atEnd rfl rfl rfl
  have last : t.tokens = [t.current] := congrArg _ all
  rw [last] at tokens left
  have same : l = taken := (List.append_inj' (whole.symm.trans tokens) rfl).1
  rw [← same] at nested
  -- and now with the closing one in the place of the end
  have inside : step (start opening (l ++ [closing, e'])) =
      { start x more with previous := opening } := by
    rw [split]
    exact if_neg opens'
  have closed : ReaderState.Closed { start first rest with previous := opening }
      (step (start opening (l ++ [closing, e']))) := by
    rw [inside]
    refine ⟨?_, rfl, rfl, rfl⟩
    change ClosedBy (first :: rest) (x :: more)
    rw [whole, ← split]
    exact closedBy_concat (ne_eof_of_nested nested) ends closes ends'
  obtain ⟨v, run'', closed'⟩ :=
    read_halts (l.length + 3) .expression rfl _ n t' _ run' clean' closed
  obtain ⟨close, stop, stands, closes', stops⟩ : ∃ close stop, v.tokens = [close, stop] ∧
      close.kind = .rparen ∧ stop.kind = .eof := by
    have behind := closed'.tokens
    rw [left] at behind
    generalize v.tokens = tokens' at behind
    cases behind with
    | atEnd _ closes stops => exact ⟨_, _, rfl, closes, stops⟩
    | cons notEnd => exact absurd atEnd notEnd
  obtain ⟨u, read, only, same'⟩ := parenthesized_of_inner (by rw [inside]; rfl) run'' stands closes'
  obtain ⟨current, ahead⟩ := List.cons.inj only
  have atEnd' : u.current.kind = .eof := by
    rw [current]
    exact stops
  have noArrow := startsArrow_enclosed opens closes ends' nested
  refine ⟨u, ?_, atEnd', ahead, ?_⟩
  · rw [readFrom, show (l ++ [closing, e']).length + 2 = l.length + 3 + 1 by simp]
    exact expression_of_parenthesized opens noArrow read atEnd'
  · rw [same', closed'.faults, clean']

/-- **Redundant parentheses leave no trace.** If some tokens are read as an expression up to the end
and without an error, then so are they in parentheses, whatever their spans, and they give the same
expression up to spans. -/
theorem readFrom_parenthesized {l' : List Token} {first e opening closing e' : Token}
    {rest : List Token} (whole : first :: rest = l ++ [e]) (ends : e.kind = .eof)
    (run : readFrom .expression first rest = .ok n t) (atEnd : t.current.kind = .eof)
    (all : t.ahead = []) (clean : t.faults = []) (opens : opening.kind = .lparen)
    (closes : closing.kind = .rparen) (ends' : e'.kind = .eof)
    (same : l'.map (·.respan .forget) = l.map (·.respan .forget)) :
    ∃ m u, readFrom .expression opening (l' ++ [closing, e']) = .ok m u ∧
      m.respan .forget = n.respan .forget ∧
      u.current.kind = .eof ∧ u.ahead = [] ∧ u.faults = [] := by
  obtain ⟨v, read, atEnd', all', clean'⟩ :=
    read_parenthesized whole ends run atEnd all clean opens closes ends'
  have long : l'.length = l.length := by simpa using congrArg List.length same
  have begins : (start opening (l' ++ [closing, e'])).respan .forget =
      (start opening (l ++ [closing, e'])).respan .forget := by
    simp only [start, ReaderState.respan, List.map_append, same]
  have deep : (l ++ [closing, e']).length = (l' ++ [closing, e']).length := by simp [long]
  rw [readFrom, deep] at read
  obtain ⟨m, u, read', node, state⟩ := read_of_respan begins read
  refine ⟨m, u, read', node, ?_, ?_, ?_⟩
  · exact (congrArg (·.current.kind) state).trans atEnd'
  · have ahead := congrArg ReaderState.ahead state
    simpa [ReaderState.respan, all'] using ahead
  · have faults := congrArg ReaderState.faults state
    simpa [ReaderState.respan, clean'] using faults

/-- An arrow function, which has parentheses of its own. -/
theorem readFrom_parenthesized_arrow :
    let token (kind : TokenKind) : Token := ⟨kind, .none, [], [], false⟩
    let l := [TokenKind.lparen, .identifier, .rparen, .arrow, .identifier].map token
    ∃ n t m u, readFrom .expression (token .lparen)
        ([TokenKind.identifier, .rparen, .arrow, .identifier, .eof].map token) = .ok n t ∧
      readFrom .expression (token .lparen) (l ++ [token .rparen, token .eof]) = .ok m u ∧
      m.respan .forget = n.respan .forget ∧ u.current.kind = .eof ∧ u.ahead = [] ∧
      u.faults = [] := by
  intro token l
  obtain ⟨m, u, read, same, atEnd, all, clean⟩ :=
    @readFrom_parenthesized l _ _ l (token .lparen) (token .eof) (token .lparen) (token .rparen)
      (token .eof) _ rfl rfl rfl rfl rfl rfl rfl rfl rfl rfl
  exact ⟨_, _, m, u, rfl, read, same, atEnd, all, clean⟩

end ModuleLint.Grammar
