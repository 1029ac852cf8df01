import ModuleLint.Proofs.Grammar.StatementSurvival

/-!
Scripts one after another.

A script that ends with a semicolon may be followed by another: what is read of its tokens does not
depend on what stands in the place of their end. Arrow functions need a look far ahead, but not out
of the brackets that they are in.
-/

namespace ModuleLint

open Grammar Reader

/-! ### Brackets and arrows -/

section Arrows

variable {l more more' : List Token} {d r e : Nat}

lemma semi_of_getLast?_tail {t : Token} (last : ∀ u ∈ (t :: l).getLast?, u.kind = .semi) :
    ∀ u ∈ l.getLast?, u.kind = .semi := by
  cases l with
  | nil => exact fun u hu => absurd hu (Option.not_mem_none u)
  | cons u l => exact last

/-- The token after one that is not the last semicolon does not depend on what comes behind. -/
lemma head?_append_of_getLast? {t : Token} (last : ∀ u ∈ (t :: l).getLast?, u.kind = .semi)
    (other : t.kind ≠ .semi) : (l ++ more).head? = (l ++ more').head? := by
  cases l with
  | nil => exact absurd (last t rfl) other
  | cons u l => rfl

/-- A bracket that is closed before the last semicolon is found there, whatever comes behind. -/
lemma closesBeforeArrow_append (hr : 0 < r) (nested : depthAfter (d + r) l = some e) (he : e ≤ d)
    (last : ∀ t ∈ l.getLast?, t.kind = .semi) :
    closesBeforeArrow r (l ++ more) = closesBeforeArrow r (l ++ more') := by
  induction l generalizing r with
  | nil =>
    cases nested
    omega
  | cons t l ih =>
    obtain ⟨j, behind, nested⟩ := Option.bind_eq_some_iff.mp nested
    have tail := semi_of_getLast?_tail last
    rw [List.cons_append, List.cons_append, closesBeforeArrow, closesBeforeArrow]
    split
    case h_1 kind | h_2 kind | h_3 kind =>
      rw [kind] at behind
      cases behind
      exact ih (Nat.succ_pos r) nested tail
    case h_4 kind | h_5 kind | h_6 kind =>
      rw [kind, TokenKind.depthAfter, if_neg (by omega)] at behind
      cases behind
      by_cases one : r = 1
      · rw [if_pos one, if_pos one, head?_append_of_getLast? last (by rw [kind]; decide)]
      · rw [if_neg one, if_neg one]
        refine ih (by omega) ?_ tail
        rw [← Nat.add_sub_assoc (by omega)]
        exact nested
    case h_7 => rfl
    case h_8 =>
      have same : j = d + r := by
        unfold TokenKind.depthAfter at behind
        split at behind <;> simp_all
      exact ih hr (same ▸ nested) tail

/-- Whether an arrow function starts is told before the last semicolon. -/
lemma startsArrow_append (nested : depthAfter d l = some 0) (ne : l ≠ [])
    (last : ∀ t ∈ l.getLast?, t.kind = .semi) :
    startsArrow (l ++ more) = startsArrow (l ++ more') := by
  obtain ⟨t, rest, rfl⟩ := List.exists_cons_of_ne_nil ne
  rw [List.cons_append, List.cons_append, startsArrow, startsArrow]
  by_cases word : t.kind = .identifier
  · rw [if_pos word, if_pos word, head?_append_of_getLast? last (by rw [word]; decide)]
  rw [if_neg word, if_neg word]
  by_cases bracket : t.kind = .lparen
  · obtain ⟨j, behind, nested⟩ := Option.bind_eq_some_iff.mp nested
    rw [bracket] at behind
    cases behind
    have tail := semi_of_getLast?_tail last
    rw [closesBeforeArrow, closesBeforeArrow, bracket]
    exact congrArg _ (closesBeforeArrow_append Nat.one_pos nested (Nat.zero_le d) tail)
  · rw [beq_false_of_ne bracket, Bool.false_and, Bool.false_and]

end Arrows

/-! ### Edits without a change of spans -/

/-- All spans as they are. -/
def Respan.keep : Respan := ⟨id, fun _ _ => rfl⟩

namespace Node

mutual

lemma respan_keep : ∀ m : Node, m.respan .keep = m
  | ⟨kind, value, span, flags, children⟩ => by
    rw [respan, respanAll_keep children]
    rfl

lemma respanAll_keep : ∀ l : List Node, respanAll .keep l = l
  | [] => rfl
  | m :: rest => by rw [respanAll, respan_keep m, respanAll_keep rest]

end

lemma map_respan_keep (l : List Node) : l.map (·.respan .keep) = l := by
  rw [← respanAll_eq, respanAll_keep]

end Node

namespace Edit

/-- Nothing is changed. -/
def keeping : Edit := respanning .keep

/-- The end is replaced by tokens that go on no statement. -/
def replacing (ending : List Token) (ne : ending ≠ [])
    (noElse : ∀ t ∈ ending.head?, t.kind ≠ .kwElse) : Edit :=
  ⟨.keep, some ending, fun _ same => Option.some.inj same ▸ ne,
    fun _ same => Option.some.inj same ▸ noElse⟩

lemma apply_keeping (l : List Token) : Edit.keeping.apply [] l = l := by
  induction l with
  | nil => rfl
  | cons t rest ih =>
    rw [apply_cons fun _ => rfl, ih]
    rfl

variable {ending : List Token} {ne : ending ≠ []} {noElse : ∀ t ∈ ending.head?, t.kind ≠ .kwElse}

lemma apply_replacing (l : List Token) (e : Token) :
    (replacing ending ne noElse).apply [] (l ++ [e]) = l ++ ending := by
  induction l with
  | nil => rfl
  | cons t rest ih =>
    rw [List.cons_append, apply_cons fun none => absurd none (List.concat_ne_nil e rest), ih]
    rfl

/-- Where all brackets are closed and a semicolon comes last, the end may be replaced. -/
lemma steady_replacing {s : ReaderState} {l : List Token} {u e : Token} (semi : u.kind = .semi)
    (tokens : s.tokens = l ++ [u] ++ [e]) (nested : depthAfter 0 (l ++ [u]) = some 0) :
    (replacing ending ne noElse).Steady s := by
  refine ⟨⟨u, e, semi, s.previous :: l, ?_⟩, fun m e' hm suffix => ?_⟩
  · rw [tokens, List.append_assoc]
    rfl
  · obtain ⟨front, split⟩ := suffix
    rw [tokens, ← List.append_assoc] at split
    obtain ⟨split, same⟩ := List.append_inj' split rfl
    rw [apply_replacing]
    rw [← split, depthAfter_append] at nested
    obtain ⟨d, -, nested⟩ := Option.bind_eq_some_iff.mp nested
    refine startsArrow_append nested hm fun t ht => ?_
    obtain rfl | ⟨m, x, rfl⟩ := List.eq_nil_or_concat m
    · exact absurd rfl hm
    · rw [List.concat_eq_append] at split ht
      rw [List.getLast?_concat] at ht
      cases ht
      rw [← List.append_assoc] at split
      cases (List.append_inj' split rfl).2
      exact semi

end Edit

/-! ### Loops over statements -/

namespace Grammar

variable {statement statement' : Reader Node} {s t : ReaderState} {items : List Node}

lemma hasEnd_of_endsOnce {l : List Token} (h : EndsOnce l) : HasEnd l := by
  induction l with
  | nil => cases h
  | cons t rest ih =>
    by_cases atEnd : t.kind = .eof
    · exact ⟨t, List.mem_cons_self, atEnd⟩
    · exact (ih (h.tail atEnd)).suffix (List.suffix_cons t rest)

lemma endsOnce_concat {l : List Token} {e : Token} (noEnd : ∀ t ∈ l, t.kind ≠ .eof)
    (atEnd : e.kind = .eof) : EndsOnce (l ++ [e]) := by
  induction l with
  | nil => exact atEnd
  | cons t rest ih =>
    have tail := ih fun u hu => noEnd u (List.mem_cons_of_mem t hu)
    cases rest with
    | nil => exact ⟨noEnd t List.mem_cons_self, tail⟩
    | cons u rest => exact ⟨noEnd t List.mem_cons_self, tail⟩

lemma statementTurn_of_recovering (notEnd : s.current.kind ≠ .eof)
    (run : recovering statement s = .ok items t) :
    statementTurn statement [] s = .ok (.more items) t := by
  unfold statementTurn
  refine (bind_of_ok rfl).trans ?_
  rw [if_neg (by simpa using notEnd)]
  exact bind_of_ok run

section Replacing

variable {ending : List Token} {ne : ending ≠ []} {noElse : ∀ t ∈ ending.head?, t.kind ≠ .kwElse}
  (survives : Endures (.replacing ending ne noElse) .fresh .done 0 statement statement')

include survives

/-- A statement before the end is read as it is where other tokens stand in the place of the end. -/
lemma statementTurn_replacing (notEnd : s.current.kind ≠ .eof)
    (run : recovering statement s = .ok items t) (faults : t.faults = []) (ends : HasEnd t.tokens)
    (known : (Edit.replacing ending ne noElse).Known .fresh s)
    (admits : Stand.done.admits t.current.kind) :
    Stand.done.admits s.current.kind ∧
      ∀ s', (Edit.replacing ending ne noElse).Related .fresh [] s s' →
        ∃ t', statementTurn statement' [] s' = .ok (.more items) t' ∧
          (Edit.replacing ending ne noElse).Related .fresh [] t t' := by
  obtain ⟨leads, runs⟩ := survives.recovering s items t trivial run faults
  have read := runs ends known
  have margin : (Edit.replacing ending ne noElse).Margin .done [] t :=
    .nil (fun _ => Nat.zero_le _) admits
  have before := read.margin leads.picks_nil margin
  have into := Stand.into_le (show Stand.done.into .fresh = true from rfl)
  refine ⟨into.2.2 _ before.admits, fun s' related => ?_⟩
  obtain ⟨t', run', related'⟩ := read.edited leads.picks_nil margin related
  have notEnd' : s'.current.kind ≠ .eof := by
    rw [(related.head before rfl).1]
    exact notEnd
  refine ⟨t', ?_, related'.into rfl⟩
  rw [← Node.map_respan_keep items]
  exact statementTurn_of_recovering notEnd' run'

/-- The statements before the end are read as they are where other tokens stand in its place, and
then those that the other tokens form. -/
lemma repeatedAtMost_replacing {more : List Node} {m : Nat}
    (rest : ∀ (u : ReaderState) (bound : Nat), u.tokens = ending → u.allowsIn = true →
      u.faults = [] → m < bound →
      ∃ t, repeatedAtMost (statementTurn statement' []) bound u = .ok more t ∧ t.faults = [])
    {bound : Nat} (run : repeatedAtMost (statementTurn statement []) bound s = .ok items t)
    (faults : t.faults = []) (ends : EndsOnce s.tokens) (allowsIn : s.allowsIn = true)
    (known : (Edit.replacing ending ne noElse).Known .fresh s) :
    Stand.done.admits s.current.kind ∧
      ∀ s', (Edit.replacing ending ne noElse).Related .fresh [] s s' →
        ∃ t', repeatedAtMost (statementTurn statement' []) (bound + m) s' = .ok (items ++ more) t' ∧
          t'.faults = [] := by
  induction bound generalizing s items with
  | zero => cases run
  | succ bound ih =>
    obtain ⟨u, v, turn, behind⟩ := bind_eq_ok run
    obtain ⟨atEnd, rfl, rfl⟩ | ⟨notEnd, items, rfl, recovered⟩ := statementTurn_eq_ok turn
    · cases behind
      refine ⟨by rw [atEnd]; rfl, fun s' related => ?_⟩
      have only : t.tokens = [] ++ [t.current] := congrArg _ (EndsOnce.eq_nil ends atEnd)
      have tokens := related.tokens
      rw [only, Edit.apply_replacing, List.nil_append] at tokens
      exact rest s' _ tokens (related.allowsIn.trans allowsIn) related.faults (by omega)
    · obtain ⟨items', w, loop, last⟩ := bind_eq_ok behind
      cases last
      have turns := (statementTurn_survives (k := .fresh) (.inr rfl) survives []).repeatedAtMost
        (Nat.le_refl bound)
      have clean := (turns v items' t trivial loop faults).1.faults
      have leads := (survives.recovering s items v trivial recovered clean).1
      have ends' : EndsOnce v.tokens := ends.suffix leads.suffix (List.cons_ne_nil _ _)
      obtain ⟨admits, edited⟩ := ih loop ends' (leads.allowsIn.trans allowsIn)
        (known.of_leads leads nofun)
      obtain ⟨admits', turn'⟩ := statementTurn_replacing survives notEnd recovered clean
        (hasEnd_of_endsOnce ends') known admits
      refine ⟨admits', fun s' related => ?_⟩
      obtain ⟨v', turn', related'⟩ := turn' s' related
      obtain ⟨t', rest', clean'⟩ := edited v' related'
      refine ⟨t', ?_, clean'⟩
      rw [Nat.add_right_comm, List.append_assoc]
      exact (bind_of_ok turn').trans (bind_of_ok rest')

end Replacing

/-! ### Scripts -/

variable {name : Bytes} {l : List Token} {e : Token} {n : Node}

/-- At the end only the token at the end is left. -/
lemma tokens_atEnd (once : EndsOnce (l ++ [e])) (suffix : t.tokens <:+ l ++ [e])
    (last : t.current.kind = .eof) : t.tokens = [e] := by
  have ends : EndsOnce t.tokens := once.suffix suffix (List.cons_ne_nil _ _)
  have only : t.tokens = [t.current] := congrArg _ (ends.eq_nil last)
  obtain ⟨front, same⟩ := only ▸ suffix
  exact only.trans (List.append_inj' same rfl).2

/-- A script is a list of statements that closes all its brackets and goes on no statement. -/
lemma statements_of_script (noEnd : ∀ t ∈ l, t.kind ≠ .eof) (atEnd : e.kind = .eof)
    (accepted : script name (l ++ [e]) = .ok n) : ∃ first rest t, l ++ [e] = first :: rest ∧
      statements (read (rest.length + 2) .statement) [] (start first rest) = .ok n.children t ∧
      t.faults = [] ∧ depthAfter 0 l = some 0 ∧ first.kind ≠ .kwElse := by
  obtain ⟨first, rest, items, t, split, run, faults, rfl⟩ := script_eq_ok accepted
  have survives := statements_survives (k := .fresh) (n := 0) (.inr rfl)
    (read_survives .keeping (Nat.le_refl (rest.length + 2)) .statement 0) []
  obtain ⟨leads, runs⟩ := survives _ items t trivial run faults
  have ends : EndsOnce (first :: rest) := split ▸ endsOnce_concat noEnd atEnd
  have ends' : EndsOnce t.tokens := ends.suffix leads.suffix (List.cons_ne_nil _ _)
  have last := atEnd_of_statements run
  have read := runs (hasEnd_of_endsOnce ends') (Edit.known_respanning nofun)
  refine ⟨first, rest, t, split, run, faults, ?_, ?_⟩
  · obtain ⟨taken, tokens, nested⟩ := read.nested
    have whole : (start first rest).tokens = l ++ [e] := split.symm
    rw [tokens_atEnd (endsOnce_concat noEnd atEnd) (whole ▸ leads.suffix) last, whole] at tokens
    rw [(List.append_inj' tokens rfl).1]
    exact nested
  · have margin : Edit.keeping.Margin .fresh [] t := Edit.margin_respanning last
    have admits := (read.margin leads.picks_nil margin).admits
    simp only [Stand.admits, Bool.and_eq_true, bne_iff_ne] at admits
    exact admits.2

/-- The statements of a script are read from any state before the same tokens, to any greater depth
and bound. -/
lemma repeatedAtMost_of_script {depth depth' bound : Nat} {u : ReaderState}
    (deeper : depth ≤ depth') (longer : s.ahead.length < bound)
    (run : statements (read depth .statement) [] s = .ok items t) (faults : t.faults = [])
    (tokens : u.tokens = s.tokens) (allowsIn : u.allowsIn = s.allowsIn) (clean : u.faults = []) :
    ∃ t', repeatedAtMost (statementTurn (read depth' .statement) []) bound u = .ok items t' ∧
      t'.faults = [] := by
  have survives := (statementTurn_survives (k := .fresh) (n := 0) (.inr rfl)
    (read_survives .keeping deeper .statement 0) []).repeatedAtMost longer
  obtain ⟨leads, runs⟩ := survives s items t trivial run faults
  have last := atEnd_of_statements run
  have ran := runs ⟨t.current, List.mem_cons_self, last⟩ (Edit.known_respanning nofun)
  have margin : Edit.keeping.Margin .fresh [] t := Edit.margin_respanning last
  have begins : Edit.keeping.Related .fresh ([] ++ []) s u := by
    refine ⟨?_, allowsIn, clean, fun known => absurd rfl known⟩
    rw [List.append_nil, Edit.apply_keeping, tokens]
  obtain ⟨t', run', related⟩ := ran.edited leads.picks_nil margin begins
  refine ⟨t', run'.trans ?_, related.faults⟩
  exact congrArg (Reply.ok · t') (Node.map_respan_keep items)

/-- The end of a script that ends with a semicolon may be replaced by tokens that go on no
statement: its statements are read, and then those that these tokens form. -/
lemma script_replacing {ending : List Token} (ne : ending ≠ [])
    (noElse : ∀ t ∈ ending.head?, t.kind ≠ .kwElse) (noEnd : ∀ t ∈ l, t.kind ≠ .eof)
    (atEnd : e.kind = .eof) (last : ∃ u ∈ l.getLast?, u.kind = .semi)
    (accepted : script name (l ++ [e]) = .ok n) {more : List Node}
    (behind : ∀ (depth : Nat) (u : ReaderState) (bound : Nat), ending.length < depth →
      u.tokens = ending → u.allowsIn = true → u.faults = [] → ending.length ≤ bound →
      ∃ t, repeatedAtMost (statementTurn (read depth .statement) []) bound u = .ok more t ∧
        t.faults = []) :
    ∃ both, script name (l ++ ending) = .ok both ∧ both.children = n.children ++ more := by
  obtain ⟨first, rest, t, split, run, faults, nested, -⟩ :=
    statements_of_script noEnd atEnd accepted
  obtain ⟨u, getLast, semi⟩ := last
  obtain ⟨front, rfl⟩ := List.getLast?_eq_some_iff.mp getLast
  obtain ⟨rest', whole⟩ : ∃ rest', front ++ [u] ++ ending = first :: rest' := by
    cases front <;> cases split <;> exact ⟨_, rfl⟩
  have positive := List.length_pos_iff.mpr ne
  have length := congrArg List.length split
  have length' := congrArg List.length whole
  simp only [List.length_append, List.length_cons, List.length_nil] at length length'
  have known : (Edit.replacing ending ne noElse).Known .fresh (start first rest) :=
    ⟨fun _ => Edit.steady_replacing semi split.symm nested, nofun⟩
  have begins : (Edit.replacing ending ne noElse).Related .fresh [] (start first rest)
      (start first rest') := by
    refine ⟨?_, rfl, rfl, fun known => absurd rfl known⟩
    change first :: rest' = Edit.apply _ [] (first :: rest)
    rw [← split, Edit.apply_replacing, whole]
  have deeper : rest.length + 2 ≤ rest'.length + 2 := by omega
  have ends : EndsOnce (first :: rest) := split ▸ endsOnce_concat noEnd atEnd
  obtain ⟨-, edited⟩ := repeatedAtMost_replacing (m := ending.length - 1)
    (read_survives _ deeper .statement 0)
    (fun u bound tokens allowsIn clean longer =>
      behind (rest'.length + 2) u bound (by omega) tokens allowsIn clean (by omega))
    run faults ends rfl known
  obtain ⟨t', read, clean⟩ := edited _ begins
  have bound : rest.length + 1 + (ending.length - 1) = rest'.length + 1 := by omega
  change repeatedAtMost _ (rest.length + 1 + (ending.length - 1)) _ = _ at read
  rw [bound] at read
  rw [whole]
  exact ⟨_, script_of_statements read clean, rfl⟩

/-- **Scripts may be written one after another.** If the tokens of one form a script and end with a
semicolon, and those of another form a script, then all of them together do, and its statements are
those of the one and then those of the other, with their spans. -/
theorem script_append {l' : List Token} {e' : Token} {n' : Node}
    (noEnd : ∀ t ∈ l, t.kind ≠ .eof) (noEnd' : ∀ t ∈ l', t.kind ≠ .eof) (atEnd : e.kind = .eof)
    (atEnd' : e'.kind = .eof) (last : ∃ u ∈ l.getLast?, u.kind = .semi)
    (accepted : script name (l ++ [e]) = .ok n) (accepted' : script name (l' ++ [e']) = .ok n') :
    ∃ both, script name (l ++ l' ++ [e']) = .ok both ∧
      both.children = n.children ++ n'.children := by
  obtain ⟨first, rest, t, split, run, faults, -, noElse⟩ :=
    statements_of_script noEnd' atEnd' accepted'
  have head : ∀ u ∈ (l' ++ [e']).head?, u.kind ≠ .kwElse := by
    rw [split]
    exact fun u same => Option.some.inj same ▸ noElse
  have length := congrArg List.length split
  rw [List.length_cons] at length
  rw [List.append_assoc]
  refine script_replacing (List.concat_ne_nil e' l') head noEnd atEnd last accepted ?_
  intro depth u bound deeper tokens allowsIn clean longer
  have few : (start first rest).ahead.length < bound := by
    change rest.length < bound
    omega
  exact repeatedAtMost_of_script (by omega) few run faults (tokens.trans split) allowsIn clean

/-- The scripts `(a);` and `b`. -/
theorem script_append_group :
    let token (kind : TokenKind) : Token := ⟨kind, .none, [], [], false⟩
    let l := [TokenKind.lparen, .identifier, .rparen, .semi].map token
    ∃ n n' both, script [] (l ++ [token .eof]) = .ok n ∧
      script [] ([token .identifier] ++ [token .eof]) = .ok n' ∧
      script [] (l ++ [token .identifier] ++ [token .eof]) = .ok both ∧
      both.children = n.children ++ n'.children := by
  intro token l
  have noEnd : ∀ t ∈ l, t.kind ≠ .eof := by decide
  have noEnd' : ∀ t ∈ [token .identifier], t.kind ≠ .eof := by decide
  obtain ⟨both, read, children⟩ := @script_append [] l (token .eof) _ [token .identifier]
    (token .eof) _ noEnd noEnd' rfl rfl ⟨_, rfl, rfl⟩ rfl rfl
  exact ⟨_, _, both, rfl, rfl, read, children⟩

end Grammar

end ModuleLint
