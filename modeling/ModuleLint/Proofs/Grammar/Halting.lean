import ModuleLint.Proofs.Grammar.ExpressionProgress
import ModuleLint.Proofs.Grammar.Regular

/-!
Expressions in front of a closing parenthesis.

An expression that is read up to the end is read in the same way up to a parenthesis. Whatever it
has in brackets is covered by the closing bracket, so that readers of all kinds may occur there.
Only the parts outside of brackets have to be told that nothing goes on at the parenthesis.
-/

namespace ModuleLint

namespace Reader

variable {α β γ : Type} {p q : Reader α} {f : α → Reader β} {s s' t : ReaderState}

/-! ### The judgments -/

/-- From a state the reader halts at a closing parenthesis as it does at the end. -/
def HaltsAt (p : Reader α) (s : ReaderState) : Prop :=
  ∀ a t s', p s = .ok a t → t.faults = [] → s.Closed s' → ∃ t', p s' = .ok a t' ∧ t.Closed t'

/-- So it does from every state. -/
def Halts (p : Reader α) : Prop := ∀ s, HaltsAt p s

/-- The reader halts there, and what it takes covers the token at which it starts. -/
structure Covers (p : Reader α) : Prop where
  halts : Halts p
  covered : ∀ s a t, p s = .ok a t → t.faults = [] → EndsOnce s.tokens → Covered s.tokens

/-! ### Rules -/

lemma HaltsAt.bind [hf : ∀ a, Regular (f a)] (hp : HaltsAt p s)
    (next : ∀ a u, p s = .ok a u → HaltsAt (f a) u) : HaltsAt (p >>= f) s := by
  intro b t s' run faults closed
  obtain ⟨a, u, first, second⟩ := bind_eq_ok run
  have leads := (hf a).leads u b t second faults
  obtain ⟨u', first', closed'⟩ := hp a u s' first leads.faults closed
  obtain ⟨t', second', closed''⟩ := next a u first b t u' second faults closed'
  exact ⟨t', (bind_of_ok first').trans second', closed''⟩

lemma Halts.bind [∀ a, Regular (f a)] (hp : Halts p) (hf : ∀ a, Halts (f a)) :
    Halts (p >>= f) := fun s => (hp s).bind fun a u _ => hf a u

lemma Halts.either {c : Prop} [Decidable c] (hp : Halts p) (hq : Halts q) :
    Halts (if c then p else q) := by
  split
  · exact hp
  · exact hq

/-- What takes a token starts at none of the ends. -/
lemma Halts.inside (takes : Takes 1 p) (h : ∀ s, s.current.kind ≠ .eof → HaltsAt p s) :
    Halts p := by
  intro s a t s' run faults closed
  refine h s (fun ends => ?_) a t s' run faults closed
  have ends' : EndsOnce s.tokens := closed.tokens.endsOnce
  have last : s.ahead = [] := ends'.eq_nil ends
  have moves := takes s ends' (by rw [last]; exact Nat.one_pos) trivial
  rw [run] at moves
  have fewer := moves.2 trivial
  rw [last] at fewer
  cases fewer

lemma haltsAt_look {g : ReaderState → α} (same : ∀ s', s.Closed s' → g s' = g s) :
    HaltsAt (look g) s := by
  intro a t s' run _ closed
  cases run
  exact ⟨s', congrArg (Reply.ok · s') (same s' closed), closed⟩

lemma halts_pure (a : α) : Halts (pure a) := fun _ => haltsAt_look fun _ _ => rfl

lemma halts_fail (error : SyntaxError) (span : Span) : Halts (fail error span : Reader α) := by
  intro s a t s' run
  cases run

lemma halts_failHere (error : TokenKind → SyntaxError) : Halts (failHere error : Reader α) := by
  intro s a t s' run
  cases run

lemma halts_extended (n : Node) : Halts (extended n) :=
  fun _ => haltsAt_look fun _ closed => by rw [closed.previous]

lemma halts_node (kind : NodeKind) (start : Span) (l : List Node) : Halts (node kind start l) :=
  halts_extended _

lemma HaltsAt.look {g : ReaderState → γ} {f : γ → Reader α}
    (same : ∀ s', s.Closed s' → g s' = g s) (h : HaltsAt (f (g s)) s) :
    HaltsAt (Reader.look g >>= f) s := by
  intro a t s' run faults closed
  obtain ⟨t', run', closed'⟩ := h a t s' run faults closed
  refine ⟨t', ?_, closed'⟩
  change f (g s') s' = _
  rw [same s' closed, run']

/-- What is seen inside is seen again. -/
lemma HaltsAt.lookInside {g : ReaderState → γ} {f : γ → Reader α} (inside : s.current.kind ≠ .eof)
    (same : ∀ s', s.Alike s' → g s' = g s) (h : HaltsAt (f (g s)) s) :
    HaltsAt (Reader.look g >>= f) s :=
  .look (fun s' closed => same s' (closed.alike inside)) h

lemma HaltsAt.current {f : Token → Reader α} (inside : s.current.kind ≠ .eof)
    (h : HaltsAt (f s.current) s) : HaltsAt (Reader.current >>= f) s :=
  .lookInside inside (fun _ alike => alike.current) h

lemma HaltsAt.here {f : Span → Reader α} (inside : s.current.kind ≠ .eof)
    (h : HaltsAt (f s.current.span) s) : HaltsAt (Reader.here >>= f) s :=
  .lookInside inside (fun _ alike => congrArg Token.span alike.current) h

/-- At the end and at a closing parenthesis the same reader goes on. -/
lemma Halts.current {f : Token → Reader α}
    (inside : ∀ s, s.current.kind ≠ .eof → HaltsAt (f s.current) s)
    (last : ∀ t, t.kind = .eof ∨ t.kind = .rparen → f t = q) (hq : Halts q) :
    Halts (Reader.current >>= f) := by
  intro s
  by_cases ends : s.current.kind = .eof
  · intro a t s' run faults closed
    change f s.current s = .ok a t at run
    rw [last _ (.inl ends)] at run
    obtain ⟨t', run', closed'⟩ := hq s a t s' run faults closed
    refine ⟨t', ?_, closed'⟩
    change f s'.current s' = _
    rw [last _ (.inr (closed.atEnd ends)), run']
  · exact .current ends (inside s ends)

section Tests

variable {kind : TokenKind} {what : Expectation}

/-- A test that the end and a closing parenthesis fail. -/
lemma Halts.test {o : Token → Bool} {f : Bool → Reader α}
    (ends : ∀ t, o t = true → t.kind ≠ .eof ∧ t.kind ≠ .rparen)
    (hp : ∀ s, s.current.kind ≠ .eof → HaltsAt (f true) s) (hq : Halts (f false)) :
    Halts (Reader.look (fun s => o s.current) >>= f) := by
  refine fun s => .look (fun s' closed => ?_) ?_
  · by_cases last : s.current.kind = .eof
    · have fails : o s.current = false := by
        by_contra passes
        exact (ends _ (by simpa using passes)).1 last
      have fails' : o s'.current = false := by
        by_contra passes
        exact (ends _ (by simpa using passes)).2 (closed.atEnd last)
      rw [fails, fails']
    · rw [(closed.behind last).1]
  · cases passes : o s.current with
    | true => exact hp s (ends _ passes).1
    | false => exact hq s

lemma Halts.isAt {f : Bool → Reader α} (notEnd : kind ≠ .eof)
    (notParenthesis : kind ≠ .rparen) (hp : ∀ s, s.current.kind ≠ .eof → HaltsAt (f true) s)
    (hq : Halts (f false)) : Halts (Reader.isAt kind >>= f) := by
  refine .test (o := (·.kind == kind)) (fun t here => ?_) hp hq
  rw [beq_iff_eq.mp here]
  exact ⟨notEnd, notParenthesis⟩

lemma haltsAt_advance (inside : s.current.kind ≠ .eof) : HaltsAt advance s := by
  intro a t s' run _ closed
  cases run
  exact ⟨step s', congrArg (Reply.ok · (step s')) (closed.behind inside).1, closed.step inside⟩

lemma halts_accept (notEnd : kind ≠ .eof) (notParenthesis : kind ≠ .rparen) :
    Halts (accept kind) := by
  unfold accept
  refine .isAt notEnd notParenthesis (fun s inside => ?_) (halts_pure _)
  exact (haltsAt_advance inside).bind fun _ _ _ => halts_pure _ _

lemma Halts.accept {f : Bool → Reader α} [∀ b, Regular (f b)] (notEnd : kind ≠ .eof)
    (notParenthesis : kind ≠ .rparen) (h : ∀ b, Halts (f b)) : Halts (Reader.accept kind >>= f) :=
  (halts_accept notEnd notParenthesis).bind h

/-- A token that is expected is not the end. -/
lemma halts_expect (notEnd : kind ≠ .eof) : Halts (expect kind what) := by
  intro s a t s' run _ closed
  obtain ⟨rfl, rfl, rfl⟩ := expect_eq_ok run
  have current := (closed.behind notEnd).1
  refine ⟨step s', ?_, closed.step notEnd⟩
  rw [expect_of_kind (congrArg Token.kind current), current]

end Tests

/-! ### What brackets cover -/

/-- A token that closes or joins something covers what is in front of it. -/
lemma Covers.expect {kind : TokenKind} {what : Expectation} {f : Token → Reader α}
    [∀ t, Regular (f t)] (notEnd : kind ≠ .eof) (other : kind ≠ .identifier)
    (hf : ∀ t, Halts (f t)) : Covers (Reader.expect kind what >>= f) where
  halts := (halts_expect notEnd).bind hf
  covered s a t run _ once := by
    obtain ⟨_, u, first, -⟩ := bind_eq_ok run
    obtain ⟨rfl, -, -⟩ := expect_eq_ok first
    exact EndsOnce.covered once notEnd other

/-- Any reader may stand in front of what covers it. -/
lemma Covers.after [hp : Regular p] [hf : ∀ a, Regular (f a)] (h : ∀ a, Covers (f a)) :
    Covers (p >>= f) where
  halts s b t s' run faults closed := by
    obtain ⟨a, u, first, second⟩ := bind_eq_ok run
    have behind := (hf a).leads u b t second faults
    have ahead := hp.leads s a u first behind.faults
    have once : EndsOnce u.tokens :=
      closed.tokens.endsOnce.suffix ahead.suffix (List.cons_ne_nil _ _)
    have covers := (h a).covered u b t second faults once
    obtain ⟨u', first', closed'⟩ := hp.covered s a u s' first behind.faults covers closed
    obtain ⟨t', second', closed''⟩ := (h a).halts u b t u' second faults closed'
    exact ⟨t', (bind_of_ok first').trans second', closed''⟩
  covered s b t run faults once := by
    obtain ⟨a, u, first, second⟩ := bind_eq_ok run
    have behind := (hf a).leads u b t second faults
    have ahead := hp.leads s a u first behind.faults
    have covers := (h a).covered u b t second faults
      (once.suffix ahead.suffix (List.cons_ne_nil _ _))
    exact covers.suffix ahead.suffix

lemma Covers.bind [hf : ∀ a, Regular (f a)] (hp : Covers p) (h : ∀ a, Halts (f a)) :
    Covers (p >>= f) where
  halts := hp.halts.bind h
  covered s b t run faults once := by
    obtain ⟨a, u, first, second⟩ := bind_eq_ok run
    exact hp.covered s a u first ((hf a).leads u b t second faults).faults once

lemma Covers.withIn (allows : Bool) (h : Covers p) : Covers (withIn allows p) where
  halts s a t s' run faults closed := by
    obtain ⟨u, inner, rfl⟩ := withIn_eq_ok.mp run
    obtain ⟨u', inner', closed'⟩ := h.halts _ a u { s' with allowsIn := allows } inner faults
      ⟨closed.tokens, closed.previous, rfl, closed.faults⟩
    exact ⟨_, withIn_eq_ok.mpr ⟨u', inner', rfl⟩, closed'.tokens, closed'.previous,
      closed.allowsIn, closed'.faults⟩
  covered s a t run faults once := by
    obtain ⟨u, inner, rfl⟩ := withIn_eq_ok.mp run
    exact h.covered { s with allowsIn := allows } a u inner faults once

/-! ### Growth -/

lemma Halts.growing {turn : Node → Reader (Option Node)} [hr : ∀ n, Regular (turn n)]
    (h : ∀ n, Halts (turn n)) (n : Node) : Halts (growing turn n) := by
  have atMost (bound : Nat) : ∀ n, Halts (grownAtMost turn bound n) := by
    induction bound with
    | zero =>
      intro n s a t s' run
      cases run
    | succ bound ih =>
      intro n
      unfold grownAtMost
      refine @Halts.bind _ _ _ _ ?_ (h n) fun r => ?_
      · intro r
        cases r with
        | none => exact inferInstanceAs (Regular (pure n))
        | some m => exact regular_grownAtMost hr bound m
      · cases r with
        | none => exact halts_pure n
        | some m => exact ih m
  intro s m t s' run faults closed
  obtain ⟨t', run', closed'⟩ := atMost _ n s m t s' run faults closed
  exact ⟨t', grownAtMost_longer (Nat.succ_le_succ closed.ahead_le) run', closed'⟩

end Reader

end ModuleLint
