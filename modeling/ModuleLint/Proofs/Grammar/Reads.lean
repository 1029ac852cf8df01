import ModuleLint.Proofs.Grammar.Print
import ModuleLint.Proofs.Grammar.Progress

/-!
What readers read.

`Reads p l a m` says that `p`, before the tokens `l`, succeeds with `a` and ends before `m`. It is
about tokens from no file with no arrow among them, where `in` is an operator. The rules follow the
way readers are put together.
-/

namespace ModuleLint

/-- A state before tokens from no file, with no arrow among them, where `in` is an operator. -/
structure ReaderState.Calm (s : ReaderState) : Prop where
  allowsIn : s.allowsIn = true
  previous : s.previous.span = .none
  tokens : Token.AllQuiet s.tokens

namespace Reader

open Token

/-- The reader succeeds on some tokens, with a value and without a fault, and leaves others. -/
def Reads {α : Type} (p : Reader α) (l : List Token) (a : α) (m : List Token) : Prop :=
  ∀ s : ReaderState, s.Calm → s.tokens = l →
    ∃ t, p s = .ok a t ∧ t.Calm ∧ t.tokens = m ∧ t.faults = s.faults

section Rules

variable {α β : Type} {p : Reader α} {l m r : List Token} {a : α} {b : β}

lemma reads_pure (a : α) (l : List Token) : Reads (pure a) l a l :=
  fun s calm hs => ⟨s, rfl, calm, hs, rfl⟩

lemma Reads.bind {f : α → Reader β} (hp : Reads p l a m) (hf : Reads (f a) m b r) :
    Reads (p >>= f) l b r := by
  intro s calm hs
  obtain ⟨t, pt, calmT, ht, faultsT⟩ := hp s calm hs
  obtain ⟨u, fu, calmU, hu, faultsU⟩ := hf t calmT ht
  refine ⟨u, ?_, calmU, hu, faultsU.trans faultsT⟩
  change andThen p f s = _
  unfold andThen
  rw [pt]
  exact fu

/-- The last part of a reader may hand its value on. -/
lemma Reads.map {f : α → β} (hp : Reads p l a m) :
    Reads (p >>= fun a => pure (f a)) l (f a) m := hp.bind (reads_pure _ _)

lemma reads_look {f : ReaderState → α} (h : ∀ s, s.Calm → s.tokens = l → f s = a) :
    Reads (look f) l a l := fun s calm hs =>
  ⟨s, congrArg (Reply.ok · s) (h s calm hs), calm, hs, rfl⟩

end Rules

/-! ### Tokens -/

section Tokens

variable {t : Token} {l : List Token} {k : TokenKind}

lemma current_reads (t : Token) (l : List Token) : Reads current (t :: l) t (t :: l) :=
  reads_look fun _ _ hs => (List.cons.inj hs).1

lemma here_reads (l : List Token) : Reads here l .none l :=
  reads_look fun s calm _ => (calm.tokens s.current List.mem_cons_self).1

lemma isAt_reads (k : TokenKind) (t : Token) (l : List Token) :
    Reads (isAt k) (t :: l) (t.kind == k) (t :: l) := by
  refine reads_look fun s _ hs => ?_
  rw [(List.cons.inj hs).1]

lemma isAt_true (h : t.kind = k) : Reads (isAt k) (t :: l) true (t :: l) := by
  have reads := isAt_reads k t l
  rw [beq_iff_eq.mpr h] at reads
  exact reads

lemma isAt_false (h : t.kind ≠ k) : Reads (isAt k) (t :: l) false (t :: l) := by
  have reads := isAt_reads k t l
  rw [beq_eq_false_iff_ne.mpr h] at reads
  exact reads

lemma advance_reads (h : t.kind ≠ .eof) (hl : l ≠ []) : Reads advance (t :: l) t l := by
  intro s calm hs
  obtain ⟨current, ahead⟩ := List.cons.inj hs
  cases l with
  | nil => exact absurd rfl hl
  | cons u l =>
    have noEnd : s.current.kind ≠ .eof := by rw [current]; exact h
    have stepped : step s = { s with previous := s.current, current := u, ahead := l } := by
      unfold step
      rw [if_neg noEnd, ahead]
    have quiet := allQuiet_cons.mp calm.tokens
    refine ⟨step s, congrArg (Reply.ok · _) current, ?_, ?_, ?_⟩
    · rw [stepped]
      refine ⟨calm.allowsIn, quiet.1.1, ?_⟩
      rw [ahead] at quiet
      exact quiet.2
    · rw [stepped]
      rfl
    · rw [stepped]

lemma accept_reads (h : t.kind = k) (hk : k ≠ .eof) (hl : l ≠ []) :
    Reads (accept k) (t :: l) true l := by
  unfold accept
  exact (isAt_true h).bind ((advance_reads (h ▸ hk) hl).bind (reads_pure _ _))

lemma accept_passes (h : t.kind ≠ k) : Reads (accept k) (t :: l) false (t :: l) := by
  unfold accept
  exact (isAt_false h).bind (reads_pure _ _)

lemma expect_reads {what : Expectation} (h : t.kind = k) (hk : k ≠ .eof) (hl : l ≠ []) :
    Reads (expect k what) (t :: l) t l := by
  unfold expect
  exact (isAt_true h).bind (advance_reads (h ▸ hk) hl)

lemma acceptWord_passes {word : Bytes} {applies : Token → Bool}
    (h : t.kind ≠ .identifier ∨ ∃ u m, l = u :: m ∧ applies u = false) :
    Reads (acceptWord word applies) (t :: l) false (t :: l) := by
  have no : Reads (look fun s => isWord word s.current && applies (nextToken s)) (t :: l)
      false (t :: l) := by
    refine reads_look fun s _ hs => ?_
    obtain ⟨current, ahead⟩ := List.cons.inj hs
    rw [current, isWord]
    rcases h with h | ⟨u, m, rfl, h⟩
    · rw [beq_eq_false_iff_ne.mpr h]
      rfl
    · have next : nextToken s = u := by
        rw [nextToken, ahead]
        rfl
      rw [next, h, Bool.and_false]
  unfold acceptWord
  exact no.bind (reads_pure false _)

end Tokens

/-! ### Nodes and modes -/

section Modes

variable {α : Type} {p : Reader α} {l m : List Token} {a : α}

lemma extended_reads (kind : NodeKind) (value : Bytes) (flags : NodeFlags) (children : List Node)
    (l : List Token) : Reads (extended ⟨kind, value, .none, flags, children⟩) l
      ⟨kind, value, .none, flags, children⟩ l := by
  refine reads_look fun s calm _ => ?_
  rw [calm.previous]
  rfl

lemma node_reads (kind : NodeKind) (children : List Node) (l : List Token) :
    Reads (node kind .none children) l (Node.of kind .none children) l :=
  extended_reads kind [] {} children l

lemma Reads.withIn (h : Reads p l a m) : Reads (withIn true p) l a m := by
  intro s calm hs
  obtain ⟨previous, current, ahead, faults, allowsIn⟩ := s
  obtain rfl : allowsIn = true := calm.allowsIn
  obtain ⟨t, pt, calmT, ht, faultsT⟩ := h _ calm hs
  obtain ⟨previous', current', ahead', faults', allowsIn'⟩ := t
  obtain rfl : allowsIn' = true := calmT.allowsIn
  refine ⟨_, ?_, calmT, ht, faultsT⟩
  unfold Reader.withIn
  dsimp only
  rw [pt]

lemma setAllowsIn_reads (l : List Token) : Reads (setAllowsIn true) l () l :=
  fun s calm hs => ⟨{ s with allowsIn := true }, rfl, ⟨rfl, calm.previous, calm.tokens⟩, hs, rfl⟩

lemma Reads.allowingIn (h : Reads p l a m) : Reads (allowingIn p) l a m := by
  have before : Reads (look (·.allowsIn)) l true l := reads_look fun s calm _ => calm.allowsIn
  unfold Reader.allowingIn
  exact before.bind ((setAllowsIn_reads l).bind (h.bind ((setAllowsIn_reads m).bind
    (reads_pure a m))))

end Modes

/-! ### Loops -/

section Loops

variable {l m r : List Token} {n n' : Node}

/-- Turns that grow a tree one after another, up to one that has nothing to add. -/
inductive ReadsGrowth (turn : Node → Reader (Option Node)) :
    Node → List Token → Node → List Token → Prop
  | none {n : Node} {l m : List Token} (h : Reads (turn n) l none m) : ReadsGrowth turn n l n m
  | some {n n' a : Node} {l m r : List Token} (h : Reads (turn n) l (some n') m)
    (taken : m.length < l.length) (behind : ReadsGrowth turn n' m a r) : ReadsGrowth turn n l a r

lemma ReadsGrowth.growing {turn : Node → Reader (Option Node)}
    (h : ReadsGrowth turn n l n' m) : Reads (growing turn n) l n' m := by
  -- each turn takes a token, so there are never more turns left than tokens
  have atMost : ∀ bound, l.length ≤ bound → Reads (grownAtMost turn bound n) l n' m := by
    induction h with
    | @none n l m h =>
      rintro (- | bound) hb
      · intro s _ hs
        rw [← hs] at hb
        cases hb
      · exact h.bind (reads_pure n m)
    | @some n n' a l m r h taken behind ih =>
      rintro (- | bound) hb
      · omega
      · exact h.bind (ih bound (by omega))
  intro s calm hs
  refine atMost _ ?_ s calm hs
  rw [← hs]
  exact Nat.le_refl _

lemma growing_none {turn : Node → Reader (Option Node)} (h : Reads (turn n) l none m) :
    Reads (growing turn n) l n m := (ReadsGrowth.none h).growing

/-- A tree that grows by one turn. -/
lemma growing_once {turn : Node → Reader (Option Node)} (h : Reads (turn n) l (some n') m)
    (taken : m.length < l.length) (stop : Reads (turn n') m none r) :
    Reads (growing turn n) l n' r := (ReadsGrowth.some h taken (.none stop)).growing

/-- Turns that read items one after another, the last one included. -/
inductive ReadsTurns (turn : Reader Turn) : List Token → List Node → List Token → Prop
  | last {l m : List Token} {items : List Node} (h : Reads turn l (.last items) m) :
    ReadsTurns turn l items m
  | more {l m r : List Token} {items rest : List Node} (h : Reads turn l (.more items) m)
    (taken : m.length < l.length) (behind : ReadsTurns turn m rest r) :
    ReadsTurns turn l (items ++ rest) r

lemma ReadsTurns.repeatedly {turn : Reader Turn} {items : List Node}
    (h : ReadsTurns turn l items m) : Reads (repeatedly turn) l items m := by
  -- each turn takes a token, so there are never more turns left than tokens
  have atMost : ∀ bound, l.length ≤ bound → Reads (repeatedAtMost turn bound) l items m := by
    induction h with
    | @last l m items h =>
      rintro (- | bound) hb
      · intro s _ hs
        rw [← hs] at hb
        cases hb
      · exact h.bind (reads_pure items m)
    | @more l m r items rest h taken behind ih =>
      rintro (- | bound) hb
      · omega
      · exact h.bind ((ih bound (by omega)).bind (reads_pure _ r))
  intro s calm hs
  refine atMost _ ?_ s calm hs
  rw [← hs]
  exact Nat.le_refl _

end Loops

section Lists

variable {item : Reader Node} {close : TokenKind} {holes : Bool} {t u : Token} {l m : List Token}
  {n : Node}

lemma listTurn_end (h : t.kind = close) (l : List Token) :
    Reads (listTurn close holes item) (t :: l) (.last []) (t :: l) := by
  unfold listTurn
  refine (current_reads t l).bind ?_
  rw [if_pos (.inl h)]
  exact reads_pure _ _

lemma listTurn_hole (hc : close ≠ .comma) (hl : l ≠ []) :
    Reads (listTurn close true item) (sign .comma :: l) (.more [Node.of .empty .none []]) l := by
  unfold listTurn
  refine (current_reads _ l).bind ?_
  rw [if_neg (by simpa using hc.symm), if_pos (by simp)]
  exact (advance_reads (by simp) hl).map

/-- An item starts with no token that ends the list or stands between items. -/
lemma listTurn_item {a : Turn} (first : t.kind ∉ [.comma, close, .eof])
    (h : Reads (item >>= fun n => accept .comma >>= fun more =>
      if more then pure (.more [n]) else pure (.last [n])) (t :: l) a m) :
    Reads (listTurn close holes item) (t :: l) a m := by
  simp only [List.mem_cons, List.not_mem_nil, or_false, not_or] at first
  obtain ⟨comma, close, eof⟩ := first
  unfold listTurn
  refine (current_reads t l).bind ?_
  rw [if_neg (not_or.mpr ⟨close, eof⟩), if_neg (fun hole => comma hole.2)]
  exact h

lemma listTurn_last (first : t.kind ∉ [.comma, close, .eof]) (h : Reads item (t :: l) n (u :: m))
    (stop : u.kind ≠ .comma) : Reads (listTurn close holes item) (t :: l) (.last [n]) (u :: m) :=
  listTurn_item first (h.bind ((accept_passes stop).bind (reads_pure _ _)))

lemma listTurn_more (first : t.kind ∉ [.comma, close, .eof])
    (h : Reads item (t :: l) n (u :: m)) (more : u.kind = .comma) (hm : m ≠ []) :
    Reads (listTurn close holes item) (t :: l) (.more [n]) m :=
  listTurn_item first (h.bind ((accept_reads more nofun hm).bind (reads_pure _ _)))

end Lists

end Reader

end ModuleLint
