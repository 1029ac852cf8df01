import Mathlib.Tactic.Common
import ModuleLint.Proofs.Grammar.Survival
import ModuleLint.Proofs.Grammar.Yield

/-!
Where readers stand among the tokens, and what their nodes and faults cover.

All tokens of a text are numbered. `Traces all lo i V p` says of a reader that starts before token
`i` where it ends, that its value fits that place, `V j a`, and that each of its faults starts at a
token from `lo` on that it has come to. A node lies in a range of tokens if its span runs from one
of them to another, and its children lie in between; ranges only grow while a reader goes on, so
what is known of a node stays true. The body of a `switch` clause that has no statements is left
out: it starts behind its end.
-/

namespace ModuleLint

/-! ### Ranges of tokens -/

section Ranges

variable {all : List Token} {lo lo' hi hi' i j : Nat} {n : Node} {span : Span}

/-- The span is that of token `i`. -/
def SpanOf (all : List Token) (i : Nat) (span : Span) : Prop :=
  ∃ t, all[i]? = some t ∧ span = t.span

/-- The span starts where token `i` does. -/
def StartsAt (all : List Token) (i : Nat) (span : Span) : Prop :=
  ∃ t, all[i]? = some t ∧ span.start = t.span.start

/-- The span ends before token `j`, where the one before it does. -/
def StopsAt (all : List Token) (j : Nat) (span : Span) : Prop :=
  ∃ t, all[j - 1]? = some t ∧ span.stop = t.span.stop

lemma SpanOf.startsAt (h : SpanOf all i span) : StartsAt all i span := by
  obtain ⟨t, ht, rfl⟩ := h
  exact ⟨t, ht, rfl⟩

lemma SpanOf.stopsAt (h : SpanOf all i span) : StopsAt all (i + 1) span := by
  obtain ⟨t, ht, rfl⟩ := h
  exact ⟨t, ht, rfl⟩

lemma spanOf_token {t : Token} (h : all[i]? = some t) : SpanOf all i t.span := ⟨t, h, rfl⟩

namespace Node

/-- The block in a clause of a `switch` that has no statements. -/
def IsEmptyBody (n c : Node) : Prop :=
  (n.kind = .caseClause ∨ n.kind = .defaultClause) ∧ c.kind = .block ∧ c.children = []

/-- The node covers some of the tokens from `lo` on and before `hi`, and each child some of
those. -/
inductive Lies (all : List Token) : Nat → Nat → Node → Prop
  | mk {lo hi i j : Nat} {n : Node} (first : lo ≤ i) (some : i < j) (last : j ≤ hi)
    (start : StartsAt all i n.span) (stop : StopsAt all j n.span)
    (children : ∀ c ∈ n.children, ¬ n.IsEmptyBody c → Lies all i j c) : Lies all lo hi n

lemma Lies.mono (h : Lies all lo hi n) (hlo : lo' ≤ lo) (hhi : hi ≤ hi') : Lies all lo' hi' n := by
  cases h with
  | mk first some last start stop children =>
    exact .mk (Nat.le_trans hlo first) some (Nat.le_trans last hhi) start stop children

lemma Lies.lt (h : Lies all lo hi n) : lo < hi := by
  cases h with
  | mk first some last => omega

/-- A node lies behind the token that it starts at. -/
lemma Lies.exists_start (h : Lies all lo hi n) :
    ∃ i, lo ≤ i ∧ StartsAt all i n.span ∧ Lies all i hi n := by
  cases h with
  | mk first some last start stop children =>
    exact ⟨_, first, start, .mk (Nat.le_refl _) some last start stop children⟩

lemma lies_of_spanOf (h : SpanOf all i n.span) (none : n.children = []) : Lies all i (i + 1) n := by
  refine .mk (Nat.le_refl i) (Nat.lt_succ_self i) (Nat.le_refl _) h.startsAt h.stopsAt ?_
  rw [none]
  exact fun c hc => absurd hc List.not_mem_nil

/-- Each of the nodes covers some of the tokens from `lo` on and before `hi`. -/
def EachLies (all : List Token) (lo hi : Nat) (l : List Node) : Prop := ∀ n ∈ l, Lies all lo hi n

lemma EachLies.nil : EachLies all lo hi [] := fun _ hn => absurd hn List.not_mem_nil

lemma EachLies.mono {l : List Node} (h : EachLies all lo hi l) (hlo : lo' ≤ lo) (hhi : hi ≤ hi') :
    EachLies all lo' hi' l :=
  fun n hn => (h n hn).mono hlo hhi

lemma EachLies.append {l m : List Node} (hl : EachLies all lo hi l) (hm : EachLies all lo hi m) :
    EachLies all lo hi (l ++ m) :=
  fun n hn => (List.mem_append.mp hn).elim (hl n) (hm n)

/-- A node before others, in a range that reaches over it. -/
lemma Lies.cons {l : List Node} (h : Lies all lo' hi' n) (hlo : lo ≤ lo') (hhi : hi' ≤ hi)
    (hl : EachLies all lo hi l) : EachLies all lo hi (n :: l) :=
  List.forall_mem_cons.mpr ⟨h.mono hlo hhi, hl⟩

lemma Lies.alone (h : Lies all lo' hi' n) (hlo : lo ≤ lo') (hhi : hi' ≤ hi) :
    EachLies all lo hi [n] := h.cons hlo hhi .nil

end Node

end Ranges

/-! ### Where a reader stands -/

/-- The state stands before token `i`. -/
structure ReaderState.Before (all : List Token) (i : Nat) (s : ReaderState) : Prop where
  tokens : s.tokens = all.drop i
  previous : 0 < i → all[i - 1]? = some s.previous

namespace ReaderState.Before

variable {all : List Token} {i : Nat} {s : ReaderState}

lemma lt (h : s.Before all i) : i < all.length := by
  have size := congrArg List.length h.tokens
  rw [List.length_drop, ReaderState.tokens, List.length_cons] at size
  omega

lemma current (h : s.Before all i) : all[i]? = some s.current := by
  have head := congrArg List.head? h.tokens
  rw [List.head?_drop] at head
  exact head.symm

lemma ahead (h : s.Before all i) : s.ahead = all.drop (i + 1) := by
  have tail := congrArg List.tail h.tokens
  rw [List.tail_drop] at tail
  exact tail

lemma startsAt (h : s.Before all i) : StartsAt all i s.current.span :=
  (spanOf_token h.current).startsAt

/-- The end of the text is the last token. -/
lemma atEnd_iff (hs : EndsOnce all) (h : s.Before all i) :
    s.current.kind = .eof ↔ i + 1 = all.length := by
  have ends : EndsOnce s.tokens := by
    refine hs.suffix ?_ (List.cons_ne_nil _ _)
    rw [h.tokens]
    exact List.drop_suffix i all
  have size := congrArg List.length h.ahead
  rw [List.length_drop] at size
  have inside := h.lt
  constructor
  · intro eof
    have none : s.ahead = [] := ends.eq_nil eof
    rw [none, List.length_nil] at size
    omega
  · intro last
    have none : s.ahead = [] := List.length_eq_zero_iff.mp (by omega)
    rw [ReaderState.tokens, none] at ends
    exact ends

/-- Before the end of the text the next state stands one token further. -/
lemma step (hs : EndsOnce all) (h : s.Before all i) (hi : i + 1 < all.length) :
    (Reader.step s).Before all (i + 1) := by
  have inside : s.current.kind ≠ .eof := fun eof => by
    have last := (h.atEnd_iff hs).mp eof
    omega
  have behind : s.ahead = all.drop (i + 1) := h.ahead
  unfold Reader.step
  rw [if_neg inside]
  split
  case h_1 none =>
    rw [none] at behind
    have size := congrArg List.length behind
    rw [List.length_drop, List.length_nil] at size
    omega
  case h_2 t rest more =>
    exact ⟨more.symm.trans behind, fun _ => h.current⟩

lemma step_atEnd (hs : EndsOnce all) (h : s.Before all i) (hi : i + 1 = all.length) :
    Reader.step s = s := Reader.step_atEnd ((h.atEnd_iff hs).mpr hi)

end ReaderState.Before

/-! ### The judgment -/

/-- The fault starts at a token from `lo` on and up to `j`. -/
def SyntaxFault.StartsIn (all : List Token) (lo j : Nat) (f : SyntaxFault) : Prop :=
  ∃ k, lo ≤ k ∧ k ≤ j ∧ StartsAt all k f.span

/-- Each fault that was recorded between the states starts at a token from `lo` on and before `j`,
or at the end of the text. -/
def RecordsIn (all : List Token) (lo j : Nat) (s t : ReaderState) : Prop :=
  ∀ f ∈ t.faults, f ∈ s.faults ∨
    ∃ k, lo ≤ k ∧ k ≤ j ∧ (j + 1 < all.length → k < j) ∧ StartsAt all k f.span

/-- The reply stands before a token from `i` on. -/
def Reply.Traces {α : Type} (all : List Token) (lo i : Nat) (V : Nat → α → Prop)
    (s : ReaderState) : Reply α → Prop
  | .ok a t => ∃ j, i ≤ j ∧ t.Before all j ∧ RecordsIn all lo j s t ∧ V j a
  | .fault f t => ∃ j, i ≤ j ∧ t.Before all j ∧ RecordsIn all lo j s t ∧ f.StartsIn all lo j
  | .stuck => True

namespace Reader

/-- From before token `i` the reader goes on to some token `j`, with a value that fits there. -/
def Traces {α : Type} (all : List Token) (lo i : Nat) (V : Nat → α → Prop) (p : Reader α) : Prop :=
  EndsOnce all → lo ≤ i → ∀ s : ReaderState, s.Before all i → (p s).Traces all lo i V s

section Rules

variable {α β : Type} {p q : Reader α} {f : α → Reader β} {all : List Token} {lo i j k : Nat}
  {V W : Nat → α → Prop} {X : Nat → β → Prop} {s t u : ReaderState}

lemma recordsIn_refl : RecordsIn all lo j s s := fun _ hf => .inl hf

lemma recordsIn_trans (h : RecordsIn all lo j s t) (h' : RecordsIn all lo k t u) (hjk : j ≤ k) :
    RecordsIn all lo k s u := by
  intro f hf
  rcases h' f hf with old | new
  · rcases h f old with older | ⟨m, hlo, hj, inside, start⟩
    · exact .inl older
    · exact .inr ⟨m, hlo, by omega, fun hk => by have := inside (by omega); omega, start⟩
  · exact .inr new

lemma Traces.mono (h : Traces all lo i V p) (hV : ∀ j a, i ≤ j → V j a → W j a) :
    Traces all lo i W p := by
  intro hs hlo s hi
  have trace := h hs hlo s hi
  cases hr : p s with
  | stuck => trivial
  | fault fault t => rw [hr] at trace; exact trace
  | ok a t =>
    rw [hr] at trace
    obtain ⟨j, hj, before, records, value⟩ := trace
    exact ⟨j, hj, before, records, hV j a hj value⟩

lemma traces_stuck : Traces all lo i V (fun _ => .stuck) := fun _ _ _ _ => trivial

lemma traces_pure {a : α} (h : V i a) : Traces all lo i V (pure a) :=
  fun _ _ _ hi => ⟨i, Nat.le_refl i, hi, recordsIn_refl, h⟩

lemma traces_fail {error : SyntaxError} {span : Span}
    (h : ∃ k, lo ≤ k ∧ k ≤ i ∧ StartsAt all k span) : Traces all lo i V (fail error span) :=
  fun _ _ _ hi => ⟨i, Nat.le_refl i, hi, recordsIn_refl, h⟩

lemma traces_failHere {error : TokenKind → SyntaxError} : Traces all lo i V (failHere error) :=
  fun _ hlo _ hi => ⟨i, Nat.le_refl i, hi, recordsIn_refl, i, hlo, Nat.le_refl i, hi.startsAt⟩

lemma Traces.bind (hp : Traces all lo i V p)
    (hf : ∀ a j, i ≤ j → V j a → Traces all lo j X (f a)) : Traces all lo i X (p >>= f) := by
  intro hs hlo s hi
  have first := hp hs hlo s hi
  cases hr : p s with
  | stuck =>
    rw [bind_of_stuck hr]
    trivial
  | fault fault t =>
    rw [hr] at first
    rw [bind_of_fault hr]
    exact first
  | ok a t =>
    rw [hr] at first
    rw [bind_of_ok hr]
    obtain ⟨j, hj, before, records, value⟩ := first
    have second := hf a j hj value hs (Nat.le_trans hlo hj) t before
    cases hg : f a t with
    | stuck => trivial
    | fault fault u =>
      rw [hg] at second
      obtain ⟨k, hk, before', records', start⟩ := second
      exact ⟨k, Nat.le_trans hj hk, before', recordsIn_trans records records' hk, start⟩
    | ok b u =>
      rw [hg] at second
      obtain ⟨k, hk, before', records', value'⟩ := second
      exact ⟨k, Nat.le_trans hj hk, before', recordsIn_trans records records' hk, value'⟩

/-- The value of the first part does not matter. -/
lemma Traces.skip (hp : Traces all lo i V p) (hf : ∀ a j, i ≤ j → Traces all lo j X (f a)) :
    Traces all lo i X (p >>= f) :=
  hp.bind fun a j hj _ => hf a j hj

lemma Traces.ite {c : Prop} [Decidable c] (hp : c → Traces all lo i V p)
    (hq : ¬ c → Traces all lo i V q) : Traces all lo i V (if c then p else q) := by
  split
  · exact hp ‹c›
  · exact hq ‹¬ c›

lemma Traces.either {c : Prop} [Decidable c] (hp : Traces all lo i V p)
    (hq : Traces all lo i V q) : Traces all lo i V (if c then p else q) :=
  .ite (fun _ => hp) fun _ => hq

/-- What is assumed of the place where a reader stands may be used for it. -/
lemma traces_of_le (h : lo ≤ i → Traces all lo i V p) : Traces all lo i V p :=
  fun hs hlo s hi => h hlo hs hlo s hi

end Rules

/-! ### Looking at tokens -/

section Look

variable {α β : Type} {p q : Reader α} {all : List Token} {lo i : Nat} {V : Nat → α → Prop}

/-- What is read off the state is known afterwards. -/
lemma Traces.look {g : ReaderState → β} {f : β → Reader α}
    (hf : ∀ s : ReaderState, s.Before all i → Traces all lo i V (f (g s))) :
    Traces all lo i V (look g >>= f) :=
  fun hs hlo s hi => hf s hi hs hlo s hi

/-- What is read off the state does not matter. -/
lemma Traces.skipLook {g : ReaderState → β} {f : β → Reader α}
    (hf : ∀ b, Traces all lo i V (f b)) : Traces all lo i V (Reader.look g >>= f) :=
  .look fun s _ => hf (g s)

lemma Traces.current {f : Token → Reader α}
    (hf : ∀ t, all[i]? = some t → (t.kind ≠ .eof → i + 1 < all.length) →
      Traces all lo i V (f t)) : Traces all lo i V (current >>= f) := by
  intro hs hlo s hi
  refine hf s.current hi.current (fun inside => ?_) hs hlo s hi
  have last := mt (hi.atEnd_iff hs).mpr inside
  have := hi.lt
  omega

lemma Traces.here {f : Span → Reader α}
    (hf : ∀ span, SpanOf all i span → Traces all lo i V (f span)) :
    Traces all lo i V (here >>= f) :=
  .look fun s hi => hf s.current.span (spanOf_token hi.current)

/-- A test that no end of the text passes. -/
lemma Traces.check {g : ReaderState → Bool} (hg : ∀ s, g s → s.current.kind ≠ .eof)
    (hp : i + 1 < all.length → Traces all lo i V p) (hq : Traces all lo i V q) :
    Traces all lo i V (Reader.look g >>= fun b => if b then p else q) := by
  intro hs hlo s hi
  have inside (hb : g s = true) : i + 1 < all.length := by
    have last := mt (hi.atEnd_iff hs).mpr (hg s hb)
    have := hi.lt
    omega
  exact Traces.ite (fun hb => hp (inside hb)) (fun _ => hq) hs hlo s hi

/-- A test for a kind of token. -/
lemma Traces.isAt {kind : TokenKind} (hk : (kind == .eof) = false)
    (hp : i + 1 < all.length → Traces all lo i V p) (hq : Traces all lo i V q) :
    Traces all lo i V (isAt kind >>= fun b => if b then p else q) :=
  .check (kind_of_isAt hk) hp hq

end Look

/-! ### Taking tokens -/

section Take

variable {α : Type} {p q : Reader α} {all : List Token} {lo i : Nat} {V : Nat → α → Prop}

/-- A token is taken unless it is the end of the text. -/
lemma traces_advance : Traces all lo i
    (fun j t => all[i]? = some t ∧ j ≤ i + 1 ∧ (i + 1 < all.length → j = i + 1)) advance := by
  intro hs hlo s hi
  by_cases inside : i + 1 < all.length
  · have recorded : RecordsIn all lo (i + 1) s (step s) := fun f hf => .inl (faults_step s ▸ hf)
    have later := hi.step hs inside
    exact ⟨i + 1, Nat.le_succ i, later, recorded, hi.current, Nat.le_refl _, fun _ => rfl⟩
  · have last : i + 1 = all.length := by
      have := hi.lt
      omega
    refine ⟨i, Nat.le_refl i, ?_, fun f hf => .inl ?_, hi.current, Nat.le_succ i, fun h => ?_⟩
    · exact (hi.step_atEnd hs last).symm ▸ hi
    · exact hi.step_atEnd hs last ▸ hf
    · exact absurd h inside

/-- The token at which a reader stands, if it is not the end of the text, is taken. -/
lemma Traces.advance {f : Token → Reader α} (inside : i + 1 < all.length)
    (hf : ∀ t, all[i]? = some t → Traces all lo (i + 1) V (f t)) :
    Traces all lo i V (advance >>= f) := by
  refine traces_advance.bind fun t j _ ⟨ht, _, taken⟩ => ?_
  rw [taken inside]
  exact hf t ht

lemma traces_accept {kind : TokenKind} (hk : (kind == .eof) = false) :
    Traces all lo i (fun j b => if b then j = i + 1 else j = i) (accept kind) := by
  unfold Reader.accept
  refine .isAt hk (fun inside => .advance inside fun t _ => traces_pure ?_) (traces_pure ?_)
  · rfl
  · rfl

lemma Traces.accept {kind : TokenKind} (hk : (kind == .eof) = false)
    (hp : Traces all lo (i + 1) V p) (hq : Traces all lo i V q) :
    Traces all lo i V (accept kind >>= fun b => if b then p else q) := by
  refine (traces_accept hk).bind fun b j _ hb => ?_
  cases b with
  | true =>
    rw [show j = i + 1 from hb]
    exact hp
  | false =>
    rw [show j = i from hb]
    exact hq

lemma Traces.expect {kind : TokenKind} {what : Expectation} {f : Token → Reader α}
    (hk : (kind == .eof) = false) (hf : ∀ t, all[i]? = some t → Traces all lo (i + 1) V (f t)) :
    Traces all lo i V (expect kind what >>= f) := by
  have taken : Traces all lo i (fun j t => all[i]? = some t ∧ j = i + 1)
      (Reader.expect kind what) := by
    unfold Reader.expect
    refine .isAt hk (fun inside => ?_) traces_failHere
    exact traces_advance.mono fun j t _ ⟨ht, _, taken⟩ => ⟨ht, taken inside⟩
  refine taken.bind fun t j _ ⟨ht, hj⟩ => ?_
  rw [hj]
  exact hf t ht

/-- Some place from here on. -/
abbrev onward {α : Type} : Nat → α → Prop := fun _ _ => True

lemma traces_semicolon : Traces all lo i onward semicolon := by
  unfold semicolon
  refine .accept rfl (traces_pure trivial) (.current fun t _ _ => .either ?_ traces_failHere)
  intro _ _ s hi
  exact ⟨i, Nat.le_refl i, ⟨hi.tokens, hi.previous⟩, recordsIn_refl, trivial⟩

lemma traces_acceptWord {word : Bytes} {applies : Token → Bool} :
    Traces all lo i onward (acceptWord word applies) := by
  unfold acceptWord
  refine .skipLook fun _ => .either ?_ (traces_pure trivial)
  exact traces_advance.skip fun _ _ _ => traces_pure trivial

end Take

/-! ### Nodes -/

section Nodes

open Node

variable {all : List Token} {lo i j k : Nat} {n : Node} {start span : Span} {l : List Node}

/-- A node from an earlier token to the one last taken. -/
lemma traces_extended (starts : StartsAt all k n.span) (hk : k < i)
    (children : ∀ c ∈ n.children, ¬ n.IsEmptyBody c → Lies all k i c) :
    Traces all lo i (fun j m => j = i ∧ Lies all k j m) (extended n) := by
  intro _ _ s hi
  refine ⟨i, Nat.le_refl i, hi, recordsIn_refl, rfl, ?_⟩
  exact .mk (Nat.le_refl k) hk (Nat.le_refl i) starts ⟨_, hi.previous (by omega), rfl⟩ children

lemma traces_extend (starts : StartsAt all k n.span) (hk : k < i)
    (children : EachLies all k i n.children) : Traces all lo i (Lies all k) (extended n) :=
  (traces_extended starts hk fun c hc _ => children c hc).mono fun _ _ _ h => h.2

lemma traces_node {kind : NodeKind} (starts : StartsAt all k start) (hk : k < i)
    (children : EachLies all k i l) : Traces all lo i (Lies all k) (node kind start l) :=
  traces_extend starts hk children

/-- A node that starts where its first child does. -/
lemma traces_after {operand : Node} (h : Lies all k j operand) (hj : j ≤ i)
    (same : n.span = operand.span) (children : n.children = operand :: l)
    (hl : EachLies all j i l) : Traces all lo i (Lies all k) (extended n) := by
  obtain ⟨p, hp, starts, lies⟩ := h.exists_start
  have some := lies.lt
  have each : EachLies all p i n.children := by
    rw [children]
    exact lies.cons (Nat.le_refl p) hj (hl.mono (by omega) (Nat.le_refl i))
  refine (traces_extend (same ▸ starts) (by omega) each).mono fun m _ _ around => ?_
  exact around.mono hp (Nat.le_refl m)

/-- A node that was read lies there still when its span is extended. -/
lemma traces_stretched (h : Lies all k j n) (hj : j ≤ i) :
    Traces all lo i (Lies all k) (extended n) := by
  cases h with
  | @mk _ _ first _ _ hk some last starts stops children =>
    refine (Reader.traces_extended starts (by omega) fun c hc body => ?_).mono fun _ _ _ h =>
      h.2.mono hk (Nat.le_refl _)
    exact (children c hc body).mono (Nat.le_refl _) (by omega)

/-- A node for a token alone. -/
lemma lies_nameOf {t : Token} (h : all[i]? = some t) : Lies all i (i + 1) (nameOf t) :=
  lies_of_spanOf (spanOf_token h) rfl

end Nodes

/-! ### The operator `in` -/

section In

variable {α : Type} {p : Reader α} {all : List Token} {lo i : Nat} {V : Nat → α → Prop}

/-- Whether `in` is an operator does not matter to where a reader stands. -/
lemma Traces.withIn {allows : Bool} (h : Traces all lo i V p) :
    Traces all lo i V (withIn allows p) := by
  intro hs hlo s hi
  have trace := h hs hlo { s with allowsIn := allows } ⟨hi.tokens, hi.previous⟩
  unfold Reader.withIn
  cases hr : p { s with allowsIn := allows } with
  | stuck => trivial
  | ok a t =>
    rw [hr] at trace
    obtain ⟨j, hj, before, records, value⟩ := trace
    exact ⟨j, hj, ⟨before.tokens, before.previous⟩, records, value⟩
  | fault fault t =>
    rw [hr] at trace
    obtain ⟨j, hj, before, records, starts⟩ := trace
    exact ⟨j, hj, ⟨before.tokens, before.previous⟩, records, starts⟩

lemma Traces.allowingIn (h : Traces all lo i V p) : Traces all lo i V (allowingIn p) := by
  have set {k : Nat} (allows : Bool) :
      Traces all lo k (fun j (_ : Unit) => j = k) (setAllowsIn allows) :=
    fun _ _ s hi => ⟨k, Nat.le_refl k, ⟨hi.tokens, hi.previous⟩, recordsIn_refl, rfl⟩
  unfold Reader.allowingIn
  refine .skipLook fun before => (set true).bind fun _ j _ hj => ?_
  rw [hj]
  refine h.bind fun a k _ value => (set before).bind fun _ m _ hm => ?_
  rw [hm]
  exact traces_pure value

end In

/-! ### Loops -/

section Loops

open Node

variable {all : List Token} {lo i k : Nat}

/-- The items of turns that lie behind token `k` do so together. -/
lemma Traces.repeatedly {turn : Reader Turn} (hk : k ≤ i)
    (h : ∀ i, k ≤ i → Traces all lo i (fun j u => EachLies all k j u.items) turn) :
    Traces all lo i (EachLies all k) (repeatedly turn) := by
  have atMost : ∀ bound i, k ≤ i →
      Traces all lo i (EachLies all k) (repeatedAtMost turn bound) := by
    intro bound
    induction bound with
    | zero => exact fun _ _ => traces_stuck
    | succ bound ih =>
      intro i hi
      refine (h i hi).bind fun u j hj items => ?_
      cases u with
      | last l => exact traces_pure items
      | more l =>
        refine (ih j (by omega)).bind fun more m hm rest => traces_pure ?_
        exact (items.mono (Nat.le_refl k) hm).append rest
  exact fun hs hlo s hi => atMost _ i hk hs hlo s hi

/-- A tree that lies behind token `k` does so as it grows. -/
lemma Traces.growing {turn : Node → Reader (Option Node)} {n : Node} (hk : k ≤ i)
    (hn : Lies all k i n) (h : ∀ m i, k ≤ i → Lies all k i m →
      Traces all lo i (fun j r => ∀ m' ∈ r, Lies all k j m') (turn m)) :
    Traces all lo i (Lies all k) (growing turn n) := by
  have atMost : ∀ bound m i, k ≤ i → Lies all k i m →
      Traces all lo i (Lies all k) (grownAtMost turn bound m) := by
    intro bound
    induction bound with
    | zero => exact fun _ _ _ _ => traces_stuck
    | succ bound ih =>
      intro m i hi hm
      refine (h m i hi hm).bind fun r j hj grown => ?_
      cases r with
      | none => exact traces_pure (hm.mono (Nat.le_refl k) hj)
      | some m' => exact ih m' j (by omega) (grown m' rfl)
  exact fun hs hlo s hi => atMost _ n i hk hn hs hlo s hi

lemma traces_grown {n : Node} (h : Lies all k i n) :
    Traces all lo i (fun j r => ∀ m ∈ r, Lies all k j m) (pure (some n)) :=
  traces_pure fun _ hm => Option.some.inj hm ▸ h

lemma traces_ended : Traces all lo i (fun j r => ∀ m ∈ r, Lies all k j m) (pure none) :=
  traces_pure fun m hm => absurd hm (Option.not_mem_none m)

/-- One item of a list, or a hole. -/
lemma traces_listTurn {close : TokenKind} {holes : Bool} {item : Reader Node} (hk : k ≤ i)
    (h : Traces all lo i (Lies all i) item) :
    Traces all lo i (fun j u => EachLies all k j u.items) (listTurn close holes item) := by
  unfold listTurn
  refine .current fun t ht inside => .ite (fun _ => traces_pure .nil) fun goesOn => ?_
  have inside : i + 1 < all.length := inside fun eof => goesOn (.inr eof)
  refine .ite (fun _ => .advance inside fun comma hc => traces_pure ?_) fun _ => ?_
  · exact (lies_of_spanOf (spanOf_token hc) rfl).alone hk (Nat.le_refl _)
  · refine h.bind fun n j hj lies => .accept rfl (traces_pure ?_) (traces_pure ?_)
    · exact lies.alone hk (Nat.le_succ j)
    · exact lies.alone hk (Nat.le_refl j)

lemma Traces.list {close : TokenKind} {holes : Bool} {item : Reader Node} (hk : k ≤ i)
    (h : ∀ i, k ≤ i → Traces all lo i (Lies all i) item) :
    Traces all lo i (EachLies all k) (list close holes item) :=
  .repeatedly hk fun i hi => traces_listTurn hi (h i hi)

/-! ### Recovery -/

lemma faults_toNextStatement (s : ReaderState) : (toNextStatement s).faults = s.faults := by
  rw [toNextStatement, faults_skipAhead, faults_step]

lemma before_skipAhead (hs : EndsOnce all) {bound : Nat} {s : ReaderState} (hi : s.Before all i) :
    ∃ j, i ≤ j ∧ (skipAhead bound s).Before all j := by
  induction bound generalizing s i with
  | zero => exact ⟨i, Nat.le_refl i, hi⟩
  | succ bound ih =>
    unfold skipAhead
    split
    · exact ⟨i, Nat.le_refl i, hi⟩
    · by_cases inside : i + 1 < all.length
      · obtain ⟨j, hj, before⟩ := ih (hi.step hs inside)
        exact ⟨j, by omega, before⟩
      · have last : i + 1 = all.length := by
          have := hi.lt
          omega
        rw [hi.step_atEnd hs last]
        exact ih hi

/-- A skip takes a token unless it starts at the end of the text. -/
lemma before_toNextStatement (hs : EndsOnce all) {s : ReaderState} (hi : s.Before all i) :
    ∃ j, i ≤ j ∧ (i + 1 < all.length → i < j) ∧ (toNextStatement s).Before all j := by
  by_cases inside : i + 1 < all.length
  · obtain ⟨j, hj, before⟩ := @before_skipAhead _ _ hs s.ahead.length _ (hi.step hs inside)
    exact ⟨j, by omega, fun _ => hj, before⟩
  · have last : i + 1 = all.length := by
      have := hi.lt
      omega
    obtain ⟨j, hj, before⟩ := @before_skipAhead _ _ hs s.ahead.length _ hi
    refine ⟨j, hj, fun h => absurd h inside, ?_⟩
    rw [toNextStatement, hi.step_atEnd hs last]
    exact before

/-- A fault that is recorded starts among the tokens that are taken for it, or at the end of the
text. -/
lemma Traces.recovering {p : Reader Node} (h : Traces all lo i (Lies all i) p) :
    Traces all lo i (EachLies all i) (recovering p) := by
  intro hs hlo s hi
  have trace := h hs hlo s hi
  unfold Reader.recovering
  cases hr : p s with
  | stuck => trivial
  | ok n t =>
    rw [hr] at trace
    obtain ⟨j, hj, before, records, value⟩ := trace
    exact ⟨j, hj, before, records, value.alone (Nat.le_refl i) (Nat.le_refl j)⟩
  | fault fault t =>
    rw [hr] at trace
    obtain ⟨j, hj, before, records, m, hm, hmj, start⟩ := trace
    have recorded : ReaderState.Before all j { t with faults := t.faults ++ [fault] } :=
      ⟨before.tokens, before.previous⟩
    obtain ⟨k, hk, some, skipped⟩ := before_toNextStatement hs recorded
    refine ⟨k, Nat.le_trans hj hk, skipped, fun f hf => ?_, .nil⟩
    rw [faults_toNextStatement] at hf
    rcases List.mem_append.mp hf with hf | hf
    · exact recordsIn_trans records recordsIn_refl hk f hf
    · rw [List.mem_singleton.mp hf]
      refine .inr ⟨m, hm, by omega, fun inside => ?_, start⟩
      have := some (by omega)
      omega

lemma traces_statementTurn {statement : Reader Node} {ends : List TokenKind} (hk : k ≤ i)
    (h : Traces all lo i (Lies all i) statement) :
    Traces all lo i (fun j u => EachLies all k j u.items) (statementTurn statement ends) := by
  unfold statementTurn
  refine .skipLook fun _ => .either (traces_pure .nil) ?_
  exact h.recovering.bind fun l j _ items => traces_pure (items.mono hk (Nat.le_refl j))

lemma Traces.statements {statement : Reader Node} {ends : List TokenKind} (hk : k ≤ i)
    (h : ∀ i, k ≤ i → Traces all lo i (Lies all i) statement) :
    Traces all lo i (EachLies all k) (statements statement ends) :=
  .repeatedly hk fun i hi => traces_statementTurn hi (h i hi)

end Loops

end Reader

end ModuleLint
