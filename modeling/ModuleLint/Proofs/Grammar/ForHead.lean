import ModuleLint.Proofs.Grammar.ExpressionNarrowing

/-!
Declarations in the head of a `for` loop.

In the first part of a `for` head `in` is no operator outside brackets. A declaration whose keywords
`in` all stand in brackets is read there as it is read elsewhere, if none of its operators `in` is
exposed in brackets of parameters, of a pattern or of a class.
-/

namespace ModuleLint

open Reader

/-- Each keyword `in` among the tokens stands in brackets. -/
def BracketsIn (l : List Token) : Prop :=
  ∀ i (h : i < l.length), l[i].kind = .kwIn → depthAfter 0 (l.take i) ≠ some 0

instance (l : List Token) : Decidable (BracketsIn l) :=
  inferInstanceAs (Decidable (∀ i (h : i < l.length), l[i].kind = .kwIn → _))

lemma BracketsIn.not_split {front back : List Token} {t : Token}
    (h : BracketsIn (front ++ t :: back)) (kind : t.kind = .kwIn) :
    depthAfter 0 front ≠ some 0 := by
  have inside : front.length < (front ++ t :: back).length := by
    rw [List.length_append, List.length_cons]
    omega
  have here : (front ++ t :: back)[front.length] = t := by simp
  have closed := h front.length inside ((congrArg Token.kind here).trans kind)
  rw [List.take_left] at closed
  exact closed

namespace Node

lemma exposesIn_span (n : Node) (span : Span) : { n with span }.exposesIn = n.exposesIn := by
  cases n
  rw [exposesIn, exposesIn]

lemma respan_forget_span (n : Node) (span : Span) :
    { n with span }.respan .forget = n.respan .forget := by
  cases n
  rw [respan_mk, respan_mk]
  rfl

end Node

namespace Grammar

/-! ### Declarations -/

section Declarations

variable {readers : Readers} [∀ nt, Regular (readers nt)] (hr : NarrowAll readers)
  (hs : SurviveAll .keeping readers readers)
include hr hs

lemma initializer_narrows : Narrows anywhere .level id [] [] (initializer readers) := by
  unfold initializer
  refine .skip (fun _ => nests_accept rfl) fun _ => .either ?_ ?_
  · exact (assignment_narrows hr hs).bind fun value =>
      narrows_pure (List.Subset.refl _) (List.Subset.refl _)
  · exact narrows_pure (List.nil_subset _) (List.nil_subset _)

lemma declarator_narrows : Part .level (declarator readers) := by
  have nests : Nests (fun s => [TokenKind.lbrace, .lbracket].contains s.current.kind = true)
      (pattern readers) := by
    refine ((pattern_survives hs).within fun s here => ?_).nests
    exact List.contains_iff_mem.mp here
  unfold declarator
  refine .skipLook (fun _ => rfl) fun start => .test (fun _ => rfl) ?_ ?_
  · refine (pattern_narrows hr).wherever.bindSealed (fun _ => nests) fun p => ?_
    refine (initializer_narrows hr hs).bind fun value => narrows_node ?_ fun _ => ⟨rfl, ?_⟩
    · exact List.Subset.refl _
    · exact List.subset_cons_self p value
  · refine .skip (fun _ => nests_expect rfl) fun name => ?_
    refine (initializer_narrows hr hs).bind fun value => narrows_extended ?_ fun _ => ⟨rfl, ?_⟩
    · exact List.Subset.refl _
    · exact List.Subset.refl _

lemma declaratorTurn_narrows :
    Narrows anywhere .level Turn.items [] [] (declaratorTurn readers) := by
  unfold declaratorTurn
  refine (declarator_narrows hr hs).bind fun d => .skip (fun _ => nests_accept rfl) fun _ => ?_
  refine .either (narrows_pure ?_ ?_) (narrows_pure ?_ ?_)
  all_goals exact List.Subset.refl _

lemma declaration_narrows {kind : NodeKind} (passes : kind.passesIn) :
    Narrows (·.current.kind.isOrdinary = true) .level oneNode [] [] (declaration readers kind) := by
  unfold declaration
  refine .skip (fun _ => nests_advance fun s => TokenKind.depthAfter_of_isOrdinary) ?_
  intro keyword
  refine (declaratorTurn_narrows hr hs).repeatedly.bind fun declarators => ?_
  exact narrows_node (List.Subset.refl _) fun _ => ⟨passes, List.Subset.refl _⟩

end Declarations

/-! ### Single statements -/

section Statements

variable {depth : Nat} {kind : NodeKind} {statement : Reader Node} {s t : ReaderState}
  {items : List Node} {d : Node} {u e : Token} {l : List Token}

lemma recovering_clean (run : recovering statement s = .ok items t) (clean : t.faults = []) :
    ∃ n, items = [n] ∧ statement s = .ok n t := by
  unfold recovering at run
  cases hr : statement s with
  | ok n v =>
    rw [hr] at run
    cases run
    exact ⟨n, rfl, rfl⟩
  | stuck =>
    rw [hr] at run
    cases run
  | fault fault v =>
    rw [hr] at run
    cases run
    rw [toNextStatement, faults_skipAhead, faults_step] at clean
    exact absurd clean (List.append_ne_nil_of_right_ne_nil _ (List.cons_ne_nil _ _))

/-- Without a fault each turn that is not the last reads a statement. -/
lemma eq_of_no_statements {bound : Nat}
    (run : repeatedAtMost (statementTurn statement []) bound s = .ok [] t) [Regular statement]
    (clean : t.faults = []) : t = s := by
  cases bound with
  | zero => cases run
  | succ bound =>
    obtain ⟨turn, v, first, rest⟩ := bind_eq_ok run
    obtain ⟨-, rfl, rfl⟩ | ⟨-, items, rfl, recovered⟩ := statementTurn_eq_ok first
    · cases rest
      rfl
    · have leads := Regular.leads v _ t rest clean
      obtain ⟨n, rfl, -⟩ := recovering_clean recovered leads.faults
      obtain ⟨more, w, -, last⟩ := bind_eq_ok rest
      cases last

/-- A list of statements that is a single one ends behind it. -/
lemma statements_eq_single [Regular statement] (run : statements statement [] s = .ok [d] t)
    (clean : t.faults = []) : statement s = .ok d t := by
  obtain ⟨turn, v, first, rest⟩ := bind_eq_ok run
  obtain ⟨-, rfl, rfl⟩ | ⟨-, items, rfl, recovered⟩ := statementTurn_eq_ok first
  · cases rest
  · have leads := Regular.leads v _ t rest clean
    obtain ⟨n, rfl, read⟩ := recovering_clean recovered leads.faults
    obtain ⟨more, w, rest, last⟩ := bind_eq_ok rest
    cases last
    rw [eq_of_no_statements rest clean]
    exact read

/-- A statement behind which the text ends is a list of statements. -/
lemma statements_single (run : statement s = .ok d t) (notEnd : s.current.kind ≠ .eof)
    (more : s.ahead ≠ []) (atEnd : t.current.kind = .eof) :
    statements statement [] s = .ok [d] t := by
  have recovered : recovering statement s = .ok [d] t := by
    unfold recovering
    rw [run]
  obtain ⟨next, rest, ahead⟩ := List.exists_cons_of_ne_nil more
  have last : repeatedAtMost (statementTurn statement []) (rest.length + 1) t = .ok [] t :=
    bind_of_ok (statementTurn_atEnd atEnd)
  unfold statements repeatedly
  rw [ahead]
  exact (bind_of_ok (statementTurn_of_recovering notEnd recovered)).trans (bind_of_ok last)

lemma semicolon_eq_ok (run : semicolon s = .ok () t) :
    (s.current.kind = .semi ∧ t = step s) ∨ t.tokens = s.tokens := by
  obtain ⟨b, v, taken, rest⟩ := bind_eq_ok run
  obtain ⟨semi, rfl, rfl⟩ | ⟨-, rfl, rfl⟩ := accept_eq_ok taken
  · cases rest
    exact .inl ⟨semi, rfl⟩
  · obtain ⟨omissible, w, look, omitted⟩ := bind_eq_ok rest
    cases look
    -- where none may be omitted, the reader fails
    split at omitted
    · cases omitted
      exact .inr rfl
    · cases omitted

lemma eq_of_suffix_pair {x y : Token} (h : [x, y] <:+ l ++ [u, e]) : x = u := by
  obtain ⟨front, split⟩ := h
  exact (List.cons.inj (List.append_inj' split rfl).2).1

/-- A declaration that is a statement with the semicolon at the end is read up to it. -/
lemma declaration_of_statement
    (run : declarationStatement (read depth) kind s = .ok d t) (clean : t.faults = [])
    (ordinary : s.current.kind.isOrdinary = true) (tokens : s.tokens = l ++ [u, e])
    (semi : u.kind = .semi) (left : t.tokens = [e]) (atEnd : e.kind = .eof) :
    ∃ d' v, declaration (read depth) kind s = .ok d' v ∧ v.tokens = [u, e] ∧ v.faults = [] ∧
      d = { d' with span := d.span } := by
  obtain ⟨d', v, first, rest⟩ := bind_eq_ok run
  obtain ⟨x, w, semicolon, last⟩ := bind_eq_ok rest
  cases last
  have leads := Regular.leads v x t semicolon clean
  have ends : HasEnd t.tokens := ⟨e, by simp [left], atEnd⟩
  have survives := declaration_survives (n := 0)
    (read_survives .keeping (Nat.le_refl depth)) kind
    fun s (h : s.current.kind.isOrdinary = true) => h
  obtain ⟨leads', runs⟩ := survives s d' v ordinary first leads.faults
  have known := (runs (ends.suffix leads.suffix) (Edit.known_respanning nofun)).known
  refine ⟨d', v, first, ?_, leads.faults, rfl⟩
  rcases semicolon_eq_ok semicolon with ⟨isSemi, rfl⟩ | same
  · have ahead : v.ahead = [e] := by
      rw [← tokens_step_of_hasEnd (by rw [isSemi]; decide) ends]
      exact left
    have suffix := leads'.suffix
    rw [tokens, ReaderState.tokens, ahead] at suffix
    rw [ReaderState.tokens, ahead, eq_of_suffix_pair suffix]
  · -- after a declaration comes no semicolon that it has taken
    have suffix := leads'.tokens
    rw [← same, left, tokens, ← List.cons_append] at suffix
    exact absurd (eq_of_suffix_pair suffix ▸ semi) (known.previous rfl)

end Statements

/-! ### The head of a loop -/

section Heads

variable {depth : Nat} {kind : NodeKind} {s s' t : ReaderState} {d : Node} {u e : Token}
  {l : List Token}

lemma passesIn_of_declarationKind {kind' : TokenKind} (h : declarationKind? kind' = some kind) :
    kind.passesIn := by
  cases kind' <;> cases h <;> rfl

/-- A declaration with its keywords `in` in brackets, and with no operator exposed, is read where
`in` is no operator. -/
lemma declaration_narrow (run : declaration (read depth) kind s = .ok d t) (clean : t.faults = [])
    (starts : declarationKind? s.current.kind = some kind) (allows : s.allowsIn = true)
    (tokens : s.tokens = l ++ [u, e]) (semi : u.kind = .semi) (atEnd : e.kind = .eof)
    (left : t.tokens = [u, e]) (spells : SpellsIn l) (brackets : BracketsIn l)
    (hidden : ¬ d.exposesIn) : declaration (read depth) kind s.narrow = .ok d t.narrow := by
  have ends : HasEnd t.tokens := ⟨e, by simp [left], atEnd⟩
  have spells' : SpellsIn s.tokens := by
    intro x hx isIn
    rw [tokens, List.mem_append] at hx
    rcases hx with hx | hx
    · exact spells x hx isIn
    · simp only [List.mem_cons, List.not_mem_nil, or_false] at hx
      rcases hx with rfl | rfl
      · rw [semi] at isIn
        cases isIn
      · rw [atEnd] at isIn
        cases isIn
  have narrowing := declaration_narrows (read_narrows depth)
    (read_survives .keeping (Nat.le_refl depth)) (passesIn_of_declarationKind starts)
    s d t (isOrdinary_of_declaration starts) run clean ends allows spells'
  rcases narrowing.narrow with
    same | ⟨n, hn, exposed⟩ | ⟨-, x, ⟨taken, split, nested⟩, isIn, behind⟩
  · exact same
  · rw [List.mem_singleton.mp hn] at exposed
    exact absurd exposed hidden
  · obtain ⟨back, ahead⟩ := behind
    have whole : l = taken ++ x.current :: back := by
      rw [tokens, ReaderState.tokens, ← ahead, left, ← List.cons_append,
        ← List.append_assoc] at split
      exact (List.append_inj' split rfl).1
    rw [whole] at brackets
    exact absurd nested (brackets.not_split isIn)

/-- What follows the semicolon behind a declaration may be other than the end. -/
lemma declaration_replacing {depth' : Nat} {ending : List Token} (deeper : depth ≤ depth')
    (run : declaration (read depth) kind s = .ok d t) (clean : t.faults = [])
    (ordinary : s.current.kind.isOrdinary = true) (tokens : s.tokens = l ++ [u] ++ [e])
    (semi : u.kind = .semi) (atEnd : e.kind = .eof) (left : t.tokens = [u, e])
    (nested : depthAfter 0 (l ++ [u]) = some 0) (ne : ending ≠ [])
    (noElse : ∀ x ∈ ending.head?, x.kind ≠ .kwElse) (tokens' : s'.tokens = l ++ [u] ++ ending)
    (allows : s'.allowsIn = s.allowsIn) (clean' : s'.faults = []) :
    ∃ t', declaration (read depth') kind s' = .ok d t' ∧ t'.tokens = u :: ending ∧
      t'.faults = [] := by
  have ends : HasEnd t.tokens := ⟨e, by simp [left], atEnd⟩
  have survives := declaration_survives (n := 0)
    (read_survives (.replacing ending ne noElse) deeper) kind
    fun s (h : s.current.kind.isOrdinary = true) => h
  obtain ⟨leads, runs⟩ := survives s d t ordinary run clean
  have known : (Edit.replacing ending ne noElse).Known .fresh s :=
    ⟨fun _ => Edit.steady_replacing semi tokens nested, nofun⟩
  have begins : (Edit.replacing ending ne noElse).Related .fresh ([] ++ []) s s' := by
    refine ⟨?_, allows, clean', fun known => absurd rfl known⟩
    rw [tokens, List.append_nil, Edit.apply_replacing, tokens']
  have margin : (Edit.replacing ending ne noElse).Margin .loose [] t :=
    .nil (fun _ => Nat.zero_le _) rfl
  obtain ⟨t', run', related⟩ := (runs ends known).edited leads.picks_nil margin begins
  refine ⟨t', ?_, ?_, related.faults⟩
  · rw [← Node.respan_keep d]
    exact run'
  · have replaced := related.tokens
    rw [left] at replaced
    exact replaced.trans (Edit.apply_replacing [u] e)

lemma forPart_absent {close : TokenKind} (h : s.current.kind = close) :
    forPart (read depth) close s = .ok (Node.of .empty s.current.span []) s := by
  have found : isAt close s = .ok true s := by
    simp [isAt, look, h]
  unfold forPart
  exact bind_of_ok found

lemma statement_empty (h : s.current.kind = .semi) :
    read (depth + 1) .statement s = .ok (Node.of .empty s.current.span []) (step s) := by
  refine (bind_of_ok rfl).trans ?_
  rw [h]
  rfl

/-- The rest of a loop with a declaration in its head and nothing else in it, and with no body. -/
lemma forClassic_empty {v q w : Token} {start : Span} (tokens : s.tokens = [u, v, q, w, e])
    (semi : u.kind = .semi) (semi' : v.kind = .semi) (closes : q.kind = .rparen)
    (body : w.kind = .semi) : ∃ parts t, forClassic (read (depth + 1)) start d s =
      node .forStmt start (d :: parts) t ∧ t.tokens = [e] ∧ t.faults = s.faults := by
  have current {x : Token} {rest : List Token} {kind : TokenKind} {s : ReaderState}
      (h : s.tokens = x :: rest) (hx : x.kind = kind) : s.current.kind = kind := by
    rw [(List.cons.inj h).1, hx]
  have first : (step s).tokens = [v, q, w, e] := tokens_step_cons tokens (by rw [semi]; decide)
  have second : (step (step s)).tokens = [q, w, e] :=
    tokens_step_cons first (by rw [semi']; decide)
  have third : (step (step (step s))).tokens = [w, e] :=
    tokens_step_cons second (by rw [closes]; decide)
  have fourth : (step (step (step (step s)))).tokens = [e] :=
    tokens_step_cons third (by rw [body]; decide)
  have last : forBody (read (depth + 1)) (step (step s)) =
      .ok (Node.of .empty (step (step (step s))).current.span [])
        (step (step (step (step s)))) :=
    (bind_of_ok (expect_of_kind (current second closes))).trans
      (statement_empty (current third body))
  refine ⟨?parts, _, ?loop, fourth, ?faults⟩
  case loop =>
    unfold forClassic
    refine (bind_of_ok (expect_of_kind (current tokens semi))).trans ?_
    refine (bind_of_ok (forPart_absent (current first semi'))).trans ?_
    refine (bind_of_ok (expect_of_kind (current first semi'))).trans ?_
    refine (bind_of_ok (forPart_absent (current second closes))).trans ?_
    exact bind_of_ok last
  case faults => rw [faults_step, faults_step, faults_step, faults_step]

lemma forStart_declaration (starts : declarationKind? s.current.kind = some kind)
    (run : declaration (read depth) kind s.narrow = .ok d t) :
    forStart (read depth) s = .ok d { t with allowsIn := s.allowsIn } := by
  refine withIn_eq_ok.mpr ⟨t, (bind_of_ok rfl).trans ?_, rfl⟩
  simp only [starts]
  exact run

/-- A loop with the declaration in its head and nothing else in it is read. -/
lemma forStatement_empty {depth' : Nat} {head tail : List Token} {x : ReaderState}
    (deeper : depth ≤ depth' + 1)
    (run : declaration (read depth) kind s.narrow = .ok d t.narrow) (clean : t.faults = [])
    (starts : declarationKind? s.current.kind = some kind) (tokens : s.tokens = l ++ [u] ++ [e])
    (semi : u.kind = .semi) (atEnd : e.kind = .eof) (left : t.tokens = [u, e])
    (nested : depthAfter 0 (l ++ [u]) = some 0)
    (opens : head.map Token.kind = [.kwFor, .lparen])
    (closes : tail.map Token.kind = [.semi, .rparen, .semi])
    (whole : x.tokens = head ++ (l ++ [u] ++ (tail ++ [e]))) (fresh : x.faults = []) :
    ∃ parts y, forStatement (read (depth' + 1)) x = node .forStmt x.current.span (d :: parts) y ∧
      y.tokens = [e] ∧ y.faults = [] := by
  simp only [List.map_eq_cons_iff, List.map_eq_nil_iff] at opens closes
  obtain ⟨f, _, rfl, isFor, p, _, rfl, opens, rfl⟩ := opens
  obtain ⟨v, _, rfl, second, q, _, rfl, closes, w, _, rfl, body, rfl⟩ := closes
  obtain ⟨c, rest, split⟩ : ∃ c rest, l ++ [u] = c :: rest := List.exists_cons_of_ne_nil (by simp)
  have keyword : x.current = f := (List.cons.inj whole).1
  have step₁ : (step x).tokens = p :: (l ++ [u] ++ [v, q, w, e]) :=
    tokens_step_cons whole (by rw [isFor]; decide)
  have bracket : (step x).current.kind = .lparen := by rw [(List.cons.inj step₁).1, opens]
  have step₂ : (step (step x)).tokens = l ++ [u] ++ [v, q, w, e] := by
    rw [split] at step₁ ⊢
    exact tokens_step_cons step₁ (by rw [opens]; decide)
  have same : (step (step x)).current = s.current := by
    rw [split] at step₂ tokens
    exact (List.cons.inj step₂).1.trans (List.cons.inj tokens).1.symm
  have clean₂ : (step (step x)).faults = [] := by rw [faults_step, faults_step, fresh]
  have narrowed : (step (step x)).narrow.tokens = l ++ [u] ++ [v, q, w, e] := step₂
  have noElse : ∀ y ∈ [v, q, w, e].head?, y.kind ≠ .kwElse := by simp [second]
  obtain ⟨y, run', left', clean'⟩ := declaration_replacing deeper run clean
    (isOrdinary_of_declaration starts) tokens semi atEnd left nested (List.cons_ne_nil _ _) noElse
    narrowed rfl clean₂
  have first := forStart_declaration (s := step (step x)) (same ▸ starts) run'
  have notEach : (y.current.kind == .kwIn || isWord (ascii "of") y.current) = false := by
    rw [(List.cons.inj left').1]
    simp [isWord, semi]
  obtain ⟨parts, z, rest, last, faults⟩ := @forClassic_empty depth'
    { y with allowsIn := (step (step x)).allowsIn } d u e v q w x.current.span left' semi second
    closes body
  refine ⟨parts, z, ?_, last, faults.trans clean'⟩
  unfold forStatement
  refine (bind_of_ok rfl).trans ?_
  refine (bind_of_ok (expect_of_kind bracket)).trans ?_
  refine (bind_of_ok first).trans ?_
  refine (bind_of_ok rfl).trans ?_
  simp only [notEach]
  exact rest

end Heads

/-! ### Scripts -/

section Scripts

variable {name : Bytes} {kind : NodeKind} {depth : Nat} {s t : ReaderState} {n d : Node}
  {keyword u e : Token} {l head tail : List Token}

lemma statement_of_declarationKind (starts : declarationKind? s.current.kind = some kind) :
    read (depth + 1) .statement s = declarationStatement (read depth) kind s := by
  refine (bind_of_ok rfl).trans ?_
  cases h : s.current.kind <;> rw [h] at starts <;> cases starts <;> rfl

/-- A script that is a single declaration with the semicolon at its end. -/
lemma declaration_of_script (starts : declarationKind? keyword.kind = some kind)
    (noEnd : ∀ t ∈ l, t.kind ≠ .eof) (semi : u.kind = .semi) (atEnd : e.kind = .eof)
    (accepted : script name (keyword :: l ++ [u] ++ [e]) = .ok n) (single : n.children = [d]) :
    ∃ d' v, declaration (read ((l ++ [u] ++ [e]).length + 1)) kind
        (start keyword (l ++ [u] ++ [e])) = .ok d' v ∧
      v.tokens = [u, e] ∧ v.faults = [] ∧ d = { d' with span := d.span } ∧
      depthAfter 0 (keyword :: l ++ [u]) = some 0 := by
  have noEnd' : ∀ t ∈ keyword :: l ++ [u], t.kind ≠ .eof := by
    simp only [List.cons_append, List.mem_cons, List.mem_append, List.not_mem_nil, or_false]
    rintro t (rfl | ht | rfl)
    · intro isEnd
      rw [isEnd] at starts
      cases starts
    · exact noEnd t ht
    · rw [semi]
      decide
  obtain ⟨first, rest, t, split, run, clean, nested, -⟩ :=
    statements_of_script noEnd' atEnd accepted
  obtain ⟨rfl, rfl⟩ := List.cons.inj split
  have tokens : (start keyword (l ++ [u] ++ [e])).tokens = keyword :: l ++ [u, e] := by
    simp [start, ReaderState.tokens]
  have leads := Regular.leads _ _ t run clean
  have left : t.tokens = [e] :=
    tokens_atEnd (endsOnce_concat noEnd' atEnd) leads.suffix (atEnd_of_statements run)
  rw [single] at run
  have statement := statements_eq_single run clean
  rw [statement_of_declarationKind starts] at statement
  obtain ⟨d', v, declared, left', clean', respanned⟩ := declaration_of_statement statement clean
    (isOrdinary_of_declaration starts) tokens semi left atEnd
  exact ⟨d', v, declared, left', clean', respanned, nested⟩

/-- A statement up to the end is a script. -/
lemma script_single {first : Token} {rest : List Token} (notEnd : first.kind ≠ .eof)
    (more : rest ≠ [])
    (run : read (rest.length + 2) .statement (start first rest) = .ok d t)
    (left : t.tokens = [e]) (atEnd : e.kind = .eof) (clean : t.faults = []) :
    ∃ m, script name (first :: rest) = .ok m ∧ m.children = [d] := by
  have last : t.current.kind = .eof := by
    rw [(List.cons.inj left).1]
    exact atEnd
  exact ⟨_, script_of_statements (statements_single run notEnd more last) clean, rfl⟩

/-- **A declaration is the same in the head of a loop.** Where each keyword `in` of a declaration
stands in brackets, and none of its operators `in` is exposed in brackets of parameters, of a
pattern or of a class, the loop with the declaration in its head and nothing else in it is read,
with the declaration as its first part. -/
theorem script_forHead (starts : declarationKind? keyword.kind = some kind)
    (noEnd : ∀ t ∈ l, t.kind ≠ .eof) (semi : u.kind = .semi) (atEnd : e.kind = .eof)
    (accepted : script name (keyword :: l ++ [u] ++ [e]) = .ok n) (single : n.children = [d])
    (spells : SpellsIn (keyword :: l)) (brackets : BracketsIn (keyword :: l))
    (hidden : ¬ d.exposesIn) (opens : head.map Token.kind = [.kwFor, .lparen])
    (closes : tail.map Token.kind = [.semi, .rparen, .semi]) :
    ∃ m loop first, script name (head ++ (keyword :: l ++ [u] ++ (tail ++ [e]))) = .ok m ∧
      m.children = [loop] ∧ loop.kind = .forStmt ∧ loop.children.head? = some first ∧
      first.respan .forget = d.respan .forget := by
  obtain ⟨d', v, declared, left, clean, respanned, nested⟩ :=
    declaration_of_script starts noEnd semi atEnd accepted single
  have tokens : (start keyword (l ++ [u] ++ [e])).tokens = keyword :: l ++ [u, e] := by
    simp [start, ReaderState.tokens]
  have hidden' : ¬ d'.exposesIn := by
    rw [respanned, Node.exposesIn_span] at hidden
    exact hidden
  have narrow := declaration_narrow declared clean starts rfl tokens semi atEnd left spells
    brackets hidden'
  obtain ⟨f, heads, rfl, isFor, -⟩ := List.map_eq_cons_iff.mp opens
  let behind := heads ++ (keyword :: l ++ [u] ++ (tail ++ [e]))
  have deeper : (l ++ [u] ++ [e]).length + 1 ≤ behind.length + 1 := by
    simp only [behind, List.length_append, List.length_cons]
    omega
  obtain ⟨parts, y, looped, last, faults⟩ := forStatement_empty (x := start f behind) deeper narrow
    clean starts rfl semi atEnd left nested opens closes rfl rfl
  have statement : read (behind.length + 2) .statement (start f behind) =
      node .forStmt f.span (d' :: parts) y := by
    refine ((bind_of_ok rfl).trans ?_).trans looped
    rw [show (start f behind).current.kind = .kwFor from isFor]
  have notEnd : f.kind ≠ .eof := by
    rw [isFor]
    decide
  obtain ⟨m, read', children⟩ :=
    script_single notEnd (by simp [behind]) statement last atEnd faults
  refine ⟨m, _, d', read', children, rfl, rfl, ?_⟩
  rw [respanned, Node.respan_forget_span]

/-- Tokens that form a script of a single statement with a property. -/
lemma exists_single (name : Bytes) (tokens : List Token) (f : Node → Bool)
    (h : (script name tokens).toOption.any fun n => n.children.length == 1 && n.children.all f) :
    ∃ n d, script name tokens = .ok n ∧ n.children = [d] ∧ f d := by
  cases accepted : script name tokens with
  | error faults =>
    rw [accepted] at h
    cases h
  | ok n =>
    rw [accepted] at h
    obtain ⟨one, all⟩ := Bool.and_eq_true_iff.mp h
    obtain ⟨d, single⟩ := List.length_eq_one_iff.mp (beq_iff_eq.mp one)
    refine ⟨n, d, rfl, single, ?_⟩
    rw [single] at all
    simpa using all

/-- A token without a place, spelled as its kind has it if it is a keyword `in`. -/
def bareToken (kind : TokenKind) : Token :=
  ⟨kind, .none, if kind = .kwIn then ascii "in" else [], [], false⟩

/-- The loop `for (var x = (a in b); ; ) ;`. -/
theorem script_forHead_group :
    let token := bareToken
    let l := [TokenKind.identifier, .assign, .lparen, .identifier, .kwIn, .identifier,
      .rparen].map token
    let head := [token .kwFor, token .lparen]
    let tail := [token .semi, token .rparen, token .semi]
    ∃ n d m loop first,
      script [] (token .kwVar :: l ++ [token .semi] ++ [token .eof]) = .ok n ∧ n.children = [d] ∧
      script [] (head ++ (token .kwVar :: l ++ [token .semi] ++ (tail ++ [token .eof]))) = .ok m ∧
      m.children = [loop] ∧ loop.kind = .forStmt ∧ loop.children.head? = some first ∧
      first.respan .forget = d.respan .forget := by
  intro token l head tail
  obtain ⟨n, d, accepted, single, hidden⟩ := exists_single []
    (token .kwVar :: l ++ [token .semi] ++ [token .eof]) (fun d => !d.exposesIn) (by decide +kernel)
  have noEnd : ∀ t ∈ l, t.kind ≠ .eof := by decide
  have spells : SpellsIn (token .kwVar :: l) := by decide
  have brackets : BracketsIn (token .kwVar :: l) := by decide
  have opens : head.map Token.kind = [.kwFor, .lparen] := rfl
  have closes : tail.map Token.kind = [.semi, .rparen, .semi] := rfl
  obtain ⟨m, loop, first, read⟩ := script_forHead rfl noEnd rfl rfl accepted single spells brackets
    (by simpa using hidden) opens closes
  exact ⟨n, d, m, loop, first, accepted, single, read⟩

/-- The declaration of `var f = function (a = b in c) {};` is not read in the head of a loop. -/
theorem script_forHead_parameter :
    let token := bareToken
    let l := [TokenKind.identifier, .assign, .kwFunction, .lparen, .identifier, .assign,
      .identifier, .kwIn, .identifier, .rparen, .lbrace, .rbrace].map token
    let head := [token .kwFor, token .lparen]
    let tail := [token .semi, token .rparen, token .semi]
    SpellsIn (token .kwVar :: l) ∧ BracketsIn (token .kwVar :: l) ∧
      (∃ n d, script [] (token .kwVar :: l ++ [token .semi] ++ [token .eof]) = .ok n ∧
        n.children = [d] ∧ d.kind = .varDecl) ∧
      ∀ m, script [] (head ++ (token .kwVar :: l ++ [token .semi] ++ (tail ++ [token .eof]))) ≠
        .ok m := by
  intro token l head tail
  obtain ⟨n, d, accepted, single, kind⟩ := exists_single []
    (token .kwVar :: l ++ [token .semi] ++ [token .eof]) (·.kind == .varDecl) (by decide +kernel)
  have rejected : (script []
      (head ++ (token .kwVar :: l ++ [token .semi] ++ (tail ++ [token .eof])))).toBool = false := by
    decide +kernel
  refine ⟨by decide, by decide, ⟨n, d, accepted, single, beq_iff_eq.mp kind⟩, fun m read => ?_⟩
  rw [read] at rejected
  cases rejected

end Scripts

end Grammar

end ModuleLint
