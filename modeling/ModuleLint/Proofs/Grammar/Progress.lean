import Mathlib.Tactic.Common
import ModuleLint.Grammar.Reader

/-!
Progress of readers.

`Moves place n must p` says what `p` does from a token with `place`, when fewer than `n` tokens are
ahead: it is not stuck, ends at one of the tokens left, and has taken one if its value `must`. A
bound on recursion is compared with `n`, so a token that is taken pays for one level. The rules
follow the way readers are put together; a loop whose turns take a token or are the last is never
stuck.
-/

namespace ModuleLint

/-! ### The end of the text -/

/-- The tokens that are left. -/
def ReaderState.tokens (s : ReaderState) : List Token := s.current :: s.ahead

/-- The end of the text is the last token and no other. -/
def EndsOnce : List Token → Prop
  | [] => False
  | [t] => t.kind = .eof
  | t :: u :: rest => t.kind ≠ .eof ∧ EndsOnce (u :: rest)

lemma EndsOnce.tail {t : Token} {rest : List Token} (h : EndsOnce (t :: rest))
    (ht : t.kind ≠ .eof) : EndsOnce rest := by
  cases rest with
  | nil => exact absurd h ht
  | cons u rest => exact h.2

lemma EndsOnce.eq_nil {t : Token} {rest : List Token} (h : EndsOnce (t :: rest))
    (ht : t.kind = .eof) : rest = [] := by
  cases rest with
  | nil => rfl
  | cons u rest => exact absurd ht h.1

lemma EndsOnce.suffix {l m : List Token} (h : EndsOnce m) (hl : l <:+ m) (ne : l ≠ []) :
    EndsOnce l := by
  obtain ⟨front, rfl⟩ := hl
  induction front with
  | nil => exact h
  | cons t front ih =>
    refine ih (h.tail fun ht => ne ?_)
    exact (List.append_eq_nil_iff.mp (h.eq_nil ht)).2

namespace Reader

lemma ahead_le_of_suffix {s t : ReaderState} (h : t.tokens <:+ s.tokens) :
    t.ahead.length ≤ s.ahead.length := by
  simpa [ReaderState.tokens] using h.length_le

variable {s : ReaderState}

lemma step_atEnd (h : s.current.kind = .eof) : step s = s := by
  unfold step
  rw [if_pos h]

lemma tokens_step (h : EndsOnce s.tokens) (hs : s.current.kind ≠ .eof) :
    (step s).tokens = s.ahead := by
  have tail : EndsOnce s.ahead := EndsOnce.tail h hs
  unfold step
  rw [if_neg hs]
  split
  case h_1 hn => rw [hn] at tail; cases tail
  case h_2 t rest hr => exact hr.symm

lemma tokens_step_cons {t u : Token} {rest : List Token} (h : s.tokens = t :: u :: rest)
    (ht : t.kind ≠ .eof) : (step s).tokens = u :: rest := by
  obtain ⟨current, ahead⟩ := List.cons.inj h
  simp [step, current, ht, ahead, ReaderState.tokens]

/-- The end of the text is never passed. -/
lemma step_suffix (h : EndsOnce s.tokens) : (step s).tokens <:+ s.tokens := by
  by_cases hs : s.current.kind = .eof
  · exact ⟨[], congrArg ReaderState.tokens (step_atEnd hs)⟩
  · rw [tokens_step h hs]
    exact List.suffix_cons _ _

lemma step_takes (h : EndsOnce s.tokens) (hs : s.current.kind ≠ .eof) :
    (step s).ahead.length < s.ahead.length := by
  have := congrArg List.length (tokens_step h hs)
  simp only [ReaderState.tokens, List.length_cons] at this
  omega

end Reader

/-! ### The judgment -/

/-- The reply is not stuck, leaves the tokens from some place on, and fewer of them if it `must`. -/
def Reply.Moves {α : Type} (must : α → Prop) (s : ReaderState) : Reply α → Prop
  | .ok a t => t.tokens <:+ s.tokens ∧ (must a → t.ahead.length < s.ahead.length)
  | .fault _ t => t.tokens <:+ s.tokens
  | .stuck => False

namespace Reader

section Judgment

variable {α : Type}

/-- The reader moves on from each token with `place` if fewer than `n` tokens are ahead. -/
def Moves (place : Token → Prop) (n : Nat) (must : α → Prop) (p : Reader α) : Prop :=
  ∀ s, EndsOnce s.tokens → s.ahead.length < n → place s.current → (p s).Moves must s

/-- Some tokens may be taken. -/
abbrev Goes (n : Nat) (p : Reader α) : Prop := Moves (fun _ => True) n (fun _ => False) p

/-- Each success takes a token. -/
abbrev Takes (n : Nat) (p : Reader α) : Prop := Moves (fun _ => True) n (fun _ => True) p

/-- Each success before the end of the text takes a token. -/
abbrev TakesInside (n : Nat) (p : Reader α) : Prop := Moves (·.kind ≠ .eof) n (fun _ => True) p

/-- Each turn but the last takes a token. -/
abbrev Turns (n : Nat) (turn : Reader Turn) : Prop :=
  Moves (fun _ => True) n (fun u => ∃ items, u = .more items) turn

/-- Each turn that grows the tree takes a token. -/
abbrev Grows (n : Nat) (turn : Reader (Option Node)) : Prop :=
  Moves (fun _ => True) n (fun r => r.isSome) turn

end Judgment

section Rules

variable {α β : Type} {p q : Reader α} {f : α → Reader β} {place place' : Token → Prop} {n m : Nat}
  {must must' : α → Prop} {mustAlso : β → Prop}

lemma Moves.mono (h : Moves place n must p) (hm : ∀ a, must' a → must a) :
    Moves place n must' p := by
  intro s hs hn hp
  have moves := h s hs hn hp
  cases hr : p s with
  | ok a t =>
    rw [hr] at moves
    exact ⟨moves.1, fun ha => moves.2 (hm a ha)⟩
  | fault fault t => rw [hr] at moves; exact moves
  | stuck => rw [hr] at moves; exact moves

/-- What moves with more tokens ahead moves with fewer. -/
lemma Moves.below (h : Moves place m must p) (hn : n ≤ m) : Moves place n must p :=
  fun s hs hl hp => h s hs (by omega) hp

lemma Moves.within (h : Moves place n must p) (hp : ∀ t, place' t → place t) :
    Moves place' n must p :=
  fun s hs hn ht => h s hs hn (hp _ ht)

lemma Moves.down (h : Moves place (n + 1) must p) : Moves place n must p := h.below (by omega)

/-- What goes on from any token does so from those of a place. -/
lemma Moves.from (h : Moves (fun _ => True) n must p) : Moves place n must p :=
  h.within fun _ _ => trivial

lemma Moves.goes (h : Moves place n must p) : Moves place n (fun _ => False) p :=
  h.mono fun _ => False.elim

lemma Moves.takes (h : Moves place n (fun _ => True) p) : Moves place n must p :=
  h.mono fun _ _ => trivial

/-- The same place is left at once. -/
lemma moves_stay {a : α} (h : ¬ must a) : Moves place n must (pure a) := by
  intro s hs hn hp
  exact ⟨List.suffix_rfl, fun ha => absurd ha h⟩

lemma goes_pure {a : α} : Moves place n (fun _ => False) (pure a : Reader α) := moves_stay id

lemma moves_fail {error : SyntaxError} {span : Span} : Moves place n must (fail error span) :=
  fun _ _ _ _ => List.suffix_rfl

lemma moves_failHere {error : TokenKind → SyntaxError} : Moves place n must (failHere error) :=
  fun _ _ _ _ => List.suffix_rfl

lemma bind_of_ok {s t : ReaderState} {a : α} (h : p s = .ok a t) : (p >>= f) s = f a t := by
  change andThen p f s = _
  rw [andThen, h]

lemma bind_of_fault {s t : ReaderState} {fault : SyntaxFault} (h : p s = .fault fault t) :
    (p >>= f) s = .fault fault t := by
  change andThen p f s = _
  rw [andThen, h]

lemma bind_of_stuck {s : ReaderState} (h : p s = .stuck) : (p >>= f) s = .stuck := by
  change andThen p f s = _
  rw [andThen, h]

/-- The reply of a sequence, told by its first part. -/
lemma bind_moves {s : ReaderState} (hs : EndsOnce s.tokens) (hp : (p s).Moves must s)
    (hf : ∀ a t, EndsOnce t.tokens → t.ahead.length ≤ s.ahead.length →
      (must a → t.ahead.length < s.ahead.length) →
      (f a t).Moves (fun b => mustAlso b ∧ ¬ must a) t) :
    ((p >>= f) s).Moves mustAlso s := by
  cases hr : p s with
  | stuck => rw [hr] at hp; cases hp
  | fault fault t =>
    rw [hr] at hp
    rw [bind_of_fault hr]
    exact hp
  | ok a t =>
    rw [hr] at hp
    rw [bind_of_ok hr]
    obtain ⟨suffix, taken⟩ := hp
    have ends : EndsOnce t.tokens := hs.suffix suffix (List.cons_ne_nil _ _)
    have fewer := ahead_le_of_suffix suffix
    have moves := hf a t ends fewer taken
    cases hg : f a t with
    | stuck => rw [hg] at moves; exact moves
    | fault fault u => rw [hg] at moves; exact moves.trans suffix
    | ok b u =>
      rw [hg] at moves
      refine ⟨moves.1.trans suffix, fun hb => ?_⟩
      have := ahead_le_of_suffix moves.1
      by_cases ha : must a
      · have := taken ha
        omega
      · have := moves.2 ⟨hb, ha⟩
        omega

lemma Moves.bind (hp : Moves place n (fun _ => False) p)
    (hf : ∀ a, Moves (fun _ => True) n mustAlso (f a)) : Moves place n mustAlso (p >>= f) := by
  intro s hs hn ht
  refine bind_moves hs (hp s hs hn ht) fun a t ends fewer _ => ?_
  exact (hf a).mono (fun b hb => hb.1) t ends (by omega) trivial

/-- After a token is taken, the rest has one level less to go. -/
lemma Moves.first (hp : Moves place (n + 1) (fun _ => True) p) (hf : ∀ a, Goes n (f a)) :
    Moves place (n + 1) mustAlso (p >>= f) := by
  intro s hs hn ht
  refine bind_moves hs (hp s hs hn ht) fun a t ends fewer taken => ?_
  have := taken trivial
  exact (hf a).mono (fun b hb => hb.2 trivial) t ends (by omega) trivial

lemma Moves.then (hp : Moves place n (fun _ => True) p) (hf : ∀ a, Goes n (f a)) :
    Moves place n mustAlso (p >>= f) := by
  intro s hs hn ht
  refine bind_moves hs (hp s hs hn ht) fun a t ends fewer taken => ?_
  exact (hf a).mono (fun b hb => hb.2 trivial) t ends (by omega) trivial

lemma Moves.ite {c : Prop} [Decidable c] (hp : c → Moves place n must p)
    (hq : ¬ c → Moves place n must q) : Moves place n must (if c then p else q) := by
  split
  · exact hp ‹c›
  · exact hq ‹¬ c›

lemma Moves.either {c : Prop} [Decidable c] (hp : Moves place n must p)
    (hq : Moves place n must q) : Moves place n must (if c then p else q) :=
  .ite (fun _ => hp) fun _ => hq

end Rules

/-! ### Looking at tokens -/

section Look

variable {α β : Type} {p q : Reader α} {place : Token → Prop} {n : Nat} {must : α → Prop}

/-- What is read off the state is known afterwards, and no token is taken. -/
lemma Moves.look {g : ReaderState → β} {f : β → Reader α}
    (hf : ∀ b, Moves (fun t => place t ∧ ∃ s : ReaderState, s.current = t ∧ g s = b) n must (f b)) :
    Moves place n must (look g >>= f) :=
  fun s hs hn ht => hf (g s) s hs hn ⟨ht, s, rfl, rfl⟩

lemma Moves.here {g : ReaderState → β} {f : β → Reader α} (hf : ∀ b, Moves place n must (f b)) :
    Moves place n must (Reader.look g >>= f) :=
  .look fun b => (hf b).within fun _ ht => ht.1

lemma Moves.current {f : Token → Reader α} (hf : ∀ t, place t → Moves (· = t) n must (f t)) :
    Moves place n must (current >>= f) := by
  intro s hs hn ht
  exact hf s.current ht s hs hn rfl

/-- A test that no end of the text passes. -/
lemma Moves.check {g : ReaderState → Bool} (hg : ∀ s, g s → s.current.kind ≠ .eof)
    (hp : Moves (·.kind ≠ .eof) n must p) (hq : Moves place n must q) :
    Moves place n must (Reader.look g >>= fun b => if b then p else q) := by
  refine .look fun b => .ite (fun hb => ?_) fun _ => hq.within fun _ ht => ht.1
  refine hp.within fun t ⟨_, s, hs, hgs⟩ => ?_
  rw [← hs]
  exact hg s (hgs.trans hb)

/-- A test that each end of the text passes. -/
lemma Moves.unless {g : ReaderState → Bool} (hg : ∀ s, s.current.kind = .eof → g s)
    (hp : Moves place n must p) (hq : Moves (·.kind ≠ .eof) n must q) :
    Moves place n must (Reader.look g >>= fun b => if b then p else q) := by
  refine .look fun b => .ite (fun _ => hp.within fun _ ht => ht.1) fun hb => ?_
  refine hq.within fun t ⟨_, s, hs, hgs⟩ ht => hb ?_
  rw [← hgs]
  exact hg s (by rw [hs, ht])

lemma kind_of_isAt {kind : TokenKind} (hk : (kind == .eof) = false) (s : ReaderState)
    (hs : (s.current.kind == kind) = true) : s.current.kind ≠ .eof := by
  rw [beq_iff_eq.mp hs]
  exact ne_of_beq_false hk

/-- A test for a kind of token. -/
lemma Moves.isAt {kind : TokenKind} (hk : (kind == .eof) = false)
    (hp : Moves (·.kind ≠ .eof) n must p) (hq : Moves place n must q) :
    Moves place n must (isAt kind >>= fun b => if b then p else q) :=
  .check (kind_of_isAt hk) hp hq

/-- A test for a kind of token, where it counts under a condition alone. -/
lemma Moves.isAtIf {kind : TokenKind} {c : Prop} [Decidable c] (hk : (kind == .eof) = false)
    (hp : Moves (·.kind ≠ .eof) n must p) (hq : Moves place n must q) :
    Moves place n must (Reader.isAt kind >>= fun b => if c ∧ b then p else q) := by
  refine .look fun b => .ite (fun ⟨_, hb⟩ => ?_) fun _ => hq.within fun _ ht => ht.1
  refine hp.within fun t ⟨_, s, hs, hgs⟩ => ?_
  rw [← hs]
  exact kind_of_isAt hk s (hgs.trans hb)

lemma Moves.isAtAny {kinds : List TokenKind} (hk : kinds.elem .eof = false)
    (hp : Moves (·.kind ≠ .eof) n must p) (hq : Moves place n must q) :
    Moves place n must (isAtAny kinds >>= fun b => if b then p else q) := by
  refine .check (fun s hs ht => ?_) hp hq
  have hin : kinds.elem s.current.kind = true := hs
  rw [ht, hk] at hin
  cases hin

/-- A test for the end of the text, among others. -/
lemma Moves.untilAny {kinds : List TokenKind} (hk : .eof ∈ kinds) (hp : Moves place n must p)
    (hq : Moves (·.kind ≠ .eof) n must q) :
    Moves place n must (Reader.isAtAny kinds >>= fun b => if b then p else q) := by
  refine .unless (fun s hs => ?_) hp hq
  rw [hs]
  exact List.elem_eq_true_of_mem hk

lemma goes_look {g : ReaderState → α} : Goes n (Reader.look g) :=
  fun _ _ _ _ => ⟨List.suffix_rfl, False.elim⟩

end Look

/-! ### Taking tokens -/

section Take

variable {α : Type} {p q : Reader α} {place : Token → Prop} {n : Nat} {must : α → Prop}

lemma advance_goes : Goes n advance :=
  fun _ hs _ _ => ⟨step_suffix hs, False.elim⟩

lemma advance_takes : TakesInside n advance :=
  fun _ hs _ ht => ⟨step_suffix hs, fun _ => step_takes hs ht⟩

lemma accept_moves {kind : TokenKind} (hk : (kind == .eof) = false) :
    Moves (fun _ => True) n (· = true) (accept kind) := by
  unfold accept
  exact .isAt hk (advance_takes.then fun _ => goes_pure) (moves_stay nofun)

lemma accept_goes {kind : TokenKind} (hk : (kind == .eof) = false) : Goes n (accept kind) :=
  (accept_moves hk).goes

/-- Past an accepted token there is one level less to go. -/
lemma Moves.acceptFirst {kind : TokenKind} (hk : (kind == .eof) = false) (hp : Goes n p)
    (hq : Moves (fun _ => True) (n + 1) must q) :
    Moves place (n + 1) must (accept kind >>= fun b => if b then p else q) := by
  intro s hs hn ht
  refine bind_moves hs (accept_moves hk s hs hn trivial) fun b t ends fewer taken => ?_
  cases b with
  | true =>
    have := taken rfl
    exact hp.mono (fun a ha => ha.2 rfl) t ends (by omega) trivial
  | false => exact hq.mono (fun a ha => ha.1) t ends (by omega) trivial

lemma Moves.accept {kind : TokenKind} (hk : (kind == .eof) = false) (hp : Goes n p)
    (hq : Moves (fun _ => True) n must q) :
    Moves place n must (accept kind >>= fun b => if b then p else q) := by
  cases n with
  | zero => exact fun s hs hn => absurd hn (by omega)
  | succ n => exact .acceptFirst hk hp.down hq

lemma expect_of_kind {kind : TokenKind} {what : Expectation} {s : ReaderState}
    (h : s.current.kind = kind) : expect kind what s = .ok s.current (step s) := by
  have found : Reader.isAt kind s = .ok true s := by
    simp [Reader.isAt, Reader.look, h]
  unfold expect
  exact bind_of_ok found

lemma expect_takes {kind : TokenKind} {what : Expectation} (hk : (kind == .eof) = false) :
    Takes n (expect kind what) := by
  unfold expect
  exact .isAt hk advance_takes moves_failHere

lemma expect_goes {kind : TokenKind} {what : Expectation} (hk : (kind == .eof) = false) :
    Goes n (expect kind what) := (expect_takes hk).goes

lemma semicolon_goes : Goes n semicolon := by
  unfold semicolon
  refine .accept rfl goes_pure (.current fun t _ => ?_)
  exact .either (fun _ _ _ _ => ⟨List.suffix_rfl, False.elim⟩) moves_failHere

lemma acceptWord_goes {word : Bytes} {applies : Token → Bool} :
    Goes n (acceptWord word applies) := by
  unfold acceptWord
  exact .here fun _ => .either (.bind advance_goes fun _ => goes_pure) goes_pure

lemma extended_goes {node : Node} : Goes n (extended node) := goes_look

lemma node_goes {kind : NodeKind} {start : Span} {children : List Node} :
    Goes n (node kind start children) := goes_look

end Take

/-! ### The operator `in` -/

section In

variable {α : Type} {p : Reader α} {n : Nat} {must : α → Prop}

/-- Whether `in` is an operator does not matter to the tokens left. -/
lemma Moves.withIn {allows : Bool} (h : Moves (fun _ => True) n must p) :
    Moves (fun _ => True) n must (withIn allows p) := by
  intro s hs hn ht
  have moves := h { s with allowsIn := allows } hs hn trivial
  unfold Reader.withIn
  cases hr : p { s with allowsIn := allows } with
  | ok a t => rw [hr] at moves; exact moves
  | fault fault t => rw [hr] at moves; exact moves
  | stuck => rw [hr] at moves; exact moves

/-- What `allowingIn` sets before and after `p`. -/
lemma allowingIn_eq (p : Reader α) (s : ReaderState) : allowingIn p s =
    (p >>= fun a => setAllowsIn s.allowsIn >>= fun _ => pure a) { s with allowsIn := true } := rfl

lemma Goes.allowingIn (h : Goes n p) : Goes n (allowingIn p) := by
  have set (allows : Bool) : Goes n (setAllowsIn allows) :=
    fun _ _ _ _ => ⟨List.suffix_rfl, False.elim⟩
  unfold Reader.allowingIn
  exact .here fun _ => .bind (set true) fun _ => .bind h fun _ => .bind (set _) fun _ => goes_pure

end In

/-! ### Loops -/

section Loops

variable {n : Nat}

lemma Turns.repeatedly {turn : Reader Turn} (h : Turns n turn) : Goes n (repeatedly turn) := by
  -- The bound on the turns falls with the number of tokens ahead.
  have atMost : ∀ bound ≤ n, Goes bound (repeatedAtMost turn bound) := by
    intro bound
    induction bound with
    | zero => exact fun _ s hs hn => absurd hn (by omega)
    | succ bound ih =>
      intro hb s hs hn ht
      refine bind_moves hs (h s hs (by omega) trivial) fun u t ends fewer taken => ?_
      cases u with
      | last items =>
        have rest : Goes (bound + 1) (pure items) := goes_pure
        exact rest.mono (fun _ => And.left) t ends (by omega) trivial
      | more items =>
        have := taken ⟨items, rfl⟩
        have rest := (ih (by omega)).bind fun more => goes_pure (a := items ++ more)
        exact rest.mono (fun _ => And.left) t ends (by omega) trivial
  intro s hs hn ht
  exact atMost (s.ahead.length + 1) hn s hs (by omega) trivial

lemma Grows.growing {turn : Node → Reader (Option Node)} (h : ∀ m, Grows n (turn m)) (m : Node) :
    Goes n (growing turn m) := by
  have atMost : ∀ bound ≤ n, ∀ m, Goes bound (grownAtMost turn bound m) := by
    intro bound
    induction bound with
    | zero => exact fun _ _ s hs hn => absurd hn (by omega)
    | succ bound ih =>
      intro hb m s hs hn ht
      refine bind_moves hs (h m s hs (by omega) trivial) fun r t ends fewer taken => ?_
      cases r with
      | none =>
        have rest : Goes (bound + 1) (pure m) := goes_pure
        exact rest.mono (fun _ => And.left) t ends (by omega) trivial
      | some m' =>
        have := taken rfl
        exact (ih (by omega) m').mono (fun _ => And.left) t ends (by omega) trivial
  intro s hs hn ht
  exact atMost (s.ahead.length + 1) hn m s hs (by omega) trivial

/-- A turn of a list takes its item, or a comma in the place of one. -/
lemma listTurn_turns {close : TokenKind} {holes : Bool} {item : Reader Node} (h : Takes n item) :
    Turns n (listTurn close holes item) := by
  unfold listTurn
  refine .current fun t _ => .ite (fun _ => moves_stay nofun) fun hc => ?_
  refine .ite (fun hh => ?_) fun _ => ?_
  · have inside : t.kind ≠ .eof := fun ht => hc (.inr ht)
    exact (advance_takes.then fun _ => goes_pure).within fun u hu => by rw [hu]; exact inside
  · exact h.from.then fun m => .accept rfl goes_pure goes_pure

lemma list_goes {close : TokenKind} {holes : Bool} {item : Reader Node} (h : Takes n item) :
    Goes n (list close holes item) := (listTurn_turns h).repeatedly

/-! ### Recovery -/

lemma skipAhead_suffix {bound : Nat} {s : ReaderState} (hs : EndsOnce s.tokens) :
    (skipAhead bound s).tokens <:+ s.tokens := by
  induction bound generalizing s with
  | zero => exact List.suffix_rfl
  | succ bound ih =>
    unfold skipAhead
    split
    · exact List.suffix_rfl
    · have suffix := step_suffix hs
      exact (ih (hs.suffix suffix (List.cons_ne_nil _ _))).trans suffix

/-- A skip takes a token, or else has started at the end of the text. -/
lemma toNextStatement_moves {s : ReaderState} (hs : EndsOnce s.tokens) :
    (toNextStatement s).tokens <:+ s.tokens ∧
      ((toNextStatement s).ahead.length < s.ahead.length ∨ s.ahead = []) := by
  have stepped := step_suffix hs
  have skipped : (toNextStatement s).tokens <:+ (step s).tokens :=
    skipAhead_suffix (hs.suffix stepped (List.cons_ne_nil _ _))
  refine ⟨skipped.trans stepped, ?_⟩
  by_cases atEnd : s.current.kind = .eof
  · exact .inr (EndsOnce.eq_nil hs atEnd)
  · have := step_takes hs atEnd
    have := ahead_le_of_suffix skipped
    exact .inl (by omega)

/-- Even for a statement with a fault a token is taken, be it by the statement or by the skip. -/
lemma recovering_takes {p : Reader Node} (h : Takes n p) : TakesInside n (recovering p) := by
  intro s hs hn ht
  have moves := h s hs hn trivial
  unfold recovering
  cases hr : p s with
  | stuck => rw [hr] at moves; exact moves
  | ok a t => rw [hr] at moves; exact moves
  | fault fault t =>
    rw [hr] at moves
    have suffix : t.tokens <:+ s.tokens := moves
    have ends : EndsOnce t.tokens := hs.suffix suffix (List.cons_ne_nil _ _)
    obtain ⟨skipped, taken⟩ := @toNextStatement_moves { t with faults := t.faults ++ [fault] } ends
    refine ⟨skipped.trans suffix, fun _ => ?_⟩
    have fewer := ahead_le_of_suffix suffix
    have some := step_takes hs ht
    rcases taken with taken | taken
    · change _ < t.ahead.length at taken
      omega
    · have none : t.ahead.length = 0 := List.length_eq_zero_iff.mpr taken
      have := ahead_le_of_suffix skipped
      change _ ≤ t.ahead.length at this
      omega

/-- A fault ends no loop over statements. -/
lemma recovering_inside {p : Reader Node} (h : Takes n p) {s : ReaderState} (hs : EndsOnce s.tokens)
    (hn : s.ahead.length < n) (ht : s.current.kind ≠ .eof) :
    ∃ l t, recovering p s = .ok l t ∧ t.tokens <:+ s.tokens ∧ t.ahead.length < s.ahead.length := by
  have moves := recovering_takes h s hs hn ht
  cases hr : recovering p s with
  | ok l t =>
    rw [hr] at moves
    exact ⟨l, t, rfl, moves.1, moves.2 trivial⟩
  | stuck => rw [hr] at moves; cases moves
  | fault fault t =>
    unfold recovering at hr
    split at hr <;> cases hr

lemma statementTurn_atEnd {statement : Reader Node} {ends : List TokenKind} {s : ReaderState}
    (ht : s.current.kind = .eof) : statementTurn statement ends s = .ok (.last []) s := by
  have found : isAtAny (.eof :: ends) s = .ok true s := by
    simp [isAtAny, look, ht]
  unfold statementTurn
  rw [bind_of_ok found]
  rfl

lemma statementTurn_inside {statement : Reader Node} (h : Takes n statement) {s : ReaderState}
    (hs : EndsOnce s.tokens) (hn : s.ahead.length < n) (ht : s.current.kind ≠ .eof) :
    ∃ items t, statementTurn statement [] s = .ok (.more items) t ∧
      t.tokens <:+ s.tokens ∧ t.ahead.length < s.ahead.length := by
  have notFound : isAtAny [.eof] s = .ok false s := by
    simp [isAtAny, look, ht]
  obtain ⟨l, t, hl, suffix, taken⟩ := recovering_inside h hs hn ht
  refine ⟨l, t, ?_, suffix, taken⟩
  unfold statementTurn
  rw [bind_of_ok notFound]
  exact bind_of_ok hl

lemma statementTurn_turns {statement : Reader Node} {ends : List TokenKind}
    (h : Takes n statement) : Turns n (statementTurn statement ends) := by
  unfold statementTurn
  refine .untilAny List.mem_cons_self (moves_stay nofun) ?_
  exact (recovering_takes h).then fun _ => goes_pure

lemma statements_goes {statement : Reader Node} {ends : List TokenKind} (h : Takes n statement) :
    Goes n (statements statement ends) := (statementTurn_turns h).repeatedly

end Loops

end Reader

end ModuleLint
