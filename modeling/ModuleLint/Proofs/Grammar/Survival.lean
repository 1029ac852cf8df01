import Mathlib.Tactic.Common
import ModuleLint.Proofs.Grammar.Edit
import ModuleLint.Proofs.Grammar.Progress

/-!
Readers that survive an edit.

`Survives` says of a reader `p` what a success without faults means: on edited tokens `q` does what
`p` does and changes its value by `g`. How much of the tokens ahead an edit leaves alone depends on
where a reader stands; what a reader takes is left alone, so what is known of the tokens at its end
says more of those at its start. The rules follow the way readers are put together.
-/

namespace ModuleLint

/-! ### Brackets -/

/-- The number of brackets open behind a token, of those open before it. They are counted without
regard to their kind. -/
def TokenKind.depthAfter (depth : Nat) : TokenKind → Option Nat
  | .lparen | .lbracket | .lbrace => some (depth + 1)
  | .rparen | .rbracket | .rbrace => if depth = 0 then none else some (depth - 1)
  | .eof => none
  | _ => some depth

/-- The number of brackets open behind some tokens. -/
def depthAfter : Nat → List Token → Option Nat
  | depth, [] => some depth
  | depth, t :: rest => (t.kind.depthAfter depth).bind fun d => depthAfter d rest

lemma depthAfter_append (i : Nat) (l m : List Token) :
    depthAfter i (l ++ m) = (depthAfter i l).bind fun j => depthAfter j m := by
  induction l generalizing i with
  | nil => rfl
  | cons t l ih =>
    rw [List.cons_append, depthAfter, depthAfter, Option.bind_assoc]
    exact congrArg _ (funext ih)

/-- Between the states all brackets that are opened are closed, and no others. -/
def ReaderState.Encloses (s t : ReaderState) : Prop :=
  ∃ taken, s.tokens = taken ++ t.tokens ∧ depthAfter 0 taken = some 0

/-! ### Where a reader stands -/

/-- How much of the tokens ahead an edit leaves alone. -/
inductive Stand
  /-- Before a token that is left alone; nothing is known of the token last taken. -/
  | fresh
  /-- Before a token that is left alone, where a statement or a member may have ended. -/
  | inside
  /-- Before a token that is left alone, in the middle of something. -/
  | amid
  /-- Before two tokens that are left alone. -/
  | before
  /-- After a token that ends no statement. A semicolon may be written here. -/
  | loose
  /-- After a statement. The end may be replaced here. -/
  | done
  deriving DecidableEq

namespace Stand

/-- The number of tokens before which no semicolon is written. -/
def free : Stand → Nat
  | .loose => 0
  | .before => 2
  | _ => 1

/-- The number of tokens that are not the replaced end. -/
def left : Stand → Nat
  | .loose | .done => 0
  | .before => 2
  | _ => 1

/-- Whether a token of a kind may stand here. -/
def admits : Stand → TokenKind → Bool
  | .loose, _ | .amid, _ => true
  | .fresh, k => k != .colon && k != .arrow && k != .kwElse
  | _, k => k != .colon && k != .arrow

/-- Whether the second stand leaves more alone than the first at the same token. -/
def into : Stand → Stand → Bool
  | .loose, _ => true
  | .done, k => k != .loose && k != .amid
  | .amid, k => k != .loose && k != .done
  | .inside, k => k == .inside || k == .fresh || k == .before
  | .fresh, k => k == .fresh
  | .before, k => k == .before

lemma into_self {k : Stand} : k.into k = true := by cases k <;> rfl

lemma into_le {k k' : Stand} (h : k.into k' = true) :
    k.free ≤ k'.free ∧ k.left ≤ k'.left ∧ ∀ kind, k'.admits kind → k.admits kind := by
  cases k <;> cases k' <;> simp_all [into, free, left, admits]

/-- Whether a token of a kind may be taken between the stands. -/
def takes (k : Stand) (kind : TokenKind) (k' : Stand) : Bool :=
  k.admits kind && k.free ≤ k'.free + 1 && k.left ≤ k'.left + 1 && (k' != .loose || kind != .semi)

end Stand

namespace Edit

open Grammar

variable (E : Edit)

/-- The tokens end with a semicolon and the end, and what replaces the end makes nothing before it
start an arrow function. -/
structure Steady (s : ReaderState) : Prop where
  semicolon : ∃ u e, u.kind = .semi ∧ [u, e] <:+ s.previous :: s.tokens
  arrow : ∀ l e, l ≠ [] → l ++ [e] <:+ s.tokens →
    startsArrow (E.apply [] (l ++ [e])) = startsArrow (l ++ [e])

/-- What is known where a reader starts. -/
structure Known (k : Stand) (s : ReaderState) : Prop where
  steady : E.ending.isSome → E.Steady s
  previous : k = .loose → s.previous.kind ≠ .semi

/-- What is left alone from here on, if the semicolons `c` are written. -/
structure Margin (k : Stand) (c : List E.Semicolon) (s : ReaderState) : Prop where
  omission : ∀ m ∈ c, OmissionAt s.tokens m.place
  free : ∀ m ∈ c, m.place + k.free ≤ s.ahead.length
  left : E.ending.isSome → k.left ≤ s.ahead.length
  admits : k.admits s.current.kind

/-- The second state stands in the edited tokens where the first stands in the others. -/
structure Related (k : Stand) (c : List E.Semicolon) (s s' : ReaderState) : Prop where
  tokens : s'.tokens = E.apply c s.tokens
  allowsIn : s'.allowsIn = s.allowsIn
  faults : s'.faults = []
  previous : k ≠ .fresh → s'.previous.span = E.spans.span s.previous.span

/-- The semicolons of the list are some of those left out between two states. -/
def Picks (c : List E.Semicolon) (s t : ReaderState) : Prop :=
  ∃ omitted, t.omitted = s.omitted ++ omitted ∧ (c.map (·.place)).Sublist omitted

end Edit

/-- The second state is reached from the first without a fault. -/
structure ReaderState.Leads (s t : ReaderState) : Prop where
  faults : s.faults = []
  omitted : s.omitted <+: t.omitted
  tokens : t.previous :: t.tokens <:+ s.previous :: s.tokens
  allowsIn : t.allowsIn = s.allowsIn

/-- The end of the text is among the tokens. -/
def HasEnd (l : List Token) : Prop := ∃ t ∈ l, t.kind = .eof

/-- What a success from `s` to `t` means for `q`, which does the same on edited tokens. -/
structure Edit.Run {β : Type} (E : Edit) (k k' : Stand) (i j : Nat) (q : Reader β)
    (s t : ReaderState) (b : β) : Prop where
  known : E.Known k' t
  nested : ∃ taken, s.tokens = taken ++ t.tokens ∧ depthAfter i taken = some j
  margin : ∀ {c c'}, E.Picks c s t → E.Margin k' c' t → E.Margin k (c ++ c') s
  edited : ∀ {c c' s'}, E.Picks c s t → E.Margin k' c' t → E.Related k (c ++ c') s s' →
    ∃ t', q s' = .ok b t' ∧ E.Related k' c' t t'

namespace Reader

/-- On edited tokens `q` does what `p` does without a fault, and changes its value. From a stand at
a `place` with `i` open brackets they go to another with `j`. -/
def Survives {α β : Type} (E : Edit) (place : ReaderState → Prop) (k k' : Stand) (i j : Nat)
    (g : α → β) (p : Reader α) (q : Reader β) : Prop :=
  ∀ s a t, place s → p s = .ok a t → t.faults = [] →
    s.Leads t ∧ (HasEnd t.tokens → E.Known k s → E.Run k k' i j q s t (g a))

/-- No condition on the state. -/
abbrev anywhere : ReaderState → Prop := fun _ => True

/-- A reader of nodes that survives the edit from any state on. -/
abbrev Endures (E : Edit) (k k' : Stand) (n : Nat) (p q : Reader Node) : Prop :=
  Survives E anywhere k k' n n (·.respan E.spans) p q

end Reader

/-! ### Properties of states -/

section States

variable {E : Edit} {k k' : Stand} {c c' : List E.Semicolon} {s s' t u : ReaderState}

lemma ReaderState.Leads.refl (h : s.faults = []) : s.Leads s :=
  ⟨h, List.prefix_rfl, List.suffix_rfl, rfl⟩

lemma ReaderState.Leads.trans (h : s.Leads t) (h' : t.Leads u) : s.Leads u :=
  ⟨h.faults, h.omitted.trans h'.omitted, h'.tokens.trans h.tokens,
    h'.allowsIn.trans h.allowsIn⟩

lemma ReaderState.Leads.suffix (h : s.Leads t) : t.tokens <:+ s.tokens := by
  obtain ⟨front, split⟩ := h.tokens
  cases front with
  | nil => exact ⟨[], (List.cons.inj split).2⟩
  | cons x front =>
    rw [List.cons_append] at split
    refine ⟨front ++ [t.previous], ?_⟩
    rw [List.append_assoc]
    exact (List.cons.inj split).2

lemma HasEnd.suffix {l m : List Token} (h : HasEnd l) (hl : l <:+ m) : HasEnd m := by
  obtain ⟨t, ht, eof⟩ := h
  exact ⟨t, hl.subset ht, eof⟩

lemma ReaderState.Leads.picks_nil (h : s.Leads t) : E.Picks [] s t := by
  obtain ⟨omitted, more⟩ := h.omitted
  exact ⟨omitted, more.symm, List.nil_sublist _⟩

namespace Edit

/-- Where the end is replaced, no semicolons are written. -/
lemma nil_of_ending (h : E.ending.isSome) (c : List E.Semicolon) : c = [] := by
  cases c with
  | nil => rfl
  | cons m c =>
    rw [m.noEnding] at h
    cases h

lemma Steady.of_leads (h : E.Steady s) (hl : s.Leads t) : E.Steady t := by
  obtain ⟨u, e, kind, suffix⟩ := h.semicolon
  refine ⟨⟨u, e, kind, ?_⟩, fun l e hne hs => h.arrow l e hne (hs.trans hl.suffix)⟩
  exact List.suffix_of_suffix_length_le suffix hl.tokens (by simp [ReaderState.tokens])

/-- What is known is known of a later state, too, apart from the token last taken. -/
lemma Known.of_leads (h : E.Known k s) (hl : s.Leads t)
    (previous : k' = .loose → t.previous.kind ≠ .semi) : E.Known k' t :=
  ⟨fun ending => (h.steady ending).of_leads hl, previous⟩

lemma picks_nil (h : t.omitted = s.omitted) (hc : E.Picks c s t) : c = [] := by
  obtain ⟨omitted, more, sub⟩ := hc
  have none : omitted = [] := by
    rw [h] at more
    exact List.self_eq_append_right.mp more
  rw [none] at sub
  exact List.map_eq_nil_iff.mp (List.sublist_nil.mp sub)

lemma Picks.split (h : s.Leads u) (h' : u.Leads t) (hc : E.Picks c s t) :
    ∃ c₁ c₂, c = c₁ ++ c₂ ∧ E.Picks c₁ s u ∧ E.Picks c₂ u t := by
  obtain ⟨first, hu⟩ := h.omitted
  obtain ⟨second, ht⟩ := h'.omitted
  obtain ⟨omitted, more, sub⟩ := hc
  have both : omitted = first ++ second := by
    rw [← ht, ← hu, List.append_assoc] at more
    exact (List.append_cancel_left more).symm
  rw [both] at sub
  obtain ⟨places₁, places₂, split, sub₁, sub₂⟩ := List.sublist_append_iff.mp sub
  obtain ⟨c₁, c₂, rfl, rfl, rfl⟩ := List.map_eq_append_iff.mp split
  exact ⟨c₁, c₂, rfl, ⟨first, hu.symm, sub₁⟩, second, ht.symm, sub₂⟩

lemma Known.into (h : E.Known k s) (hk : k.into k' = true) : E.Known k' s := by
  refine ⟨h.steady, fun loose => h.previous ?_⟩
  subst loose
  cases k <;> first | rfl | cases hk

lemma Margin.nil (left : E.ending.isSome → k.left ≤ s.ahead.length)
    (admits : k.admits s.current.kind) : E.Margin k [] s :=
  ⟨List.forall_mem_nil _, List.forall_mem_nil _, left, admits⟩

section Respanning

variable {spans : Respan}

lemma known_respanning (hk : k ≠ .loose) : (respanning spans).Known k s :=
  ⟨fun ending => absurd ending Bool.false_ne_true, fun loose => absurd loose hk⟩

lemma margin_respanning (atEnd : s.current.kind = .eof) :
    (respanning spans).Margin .fresh [] s := by
  refine .nil (fun ending => absurd ending Bool.false_ne_true) ?_
  rw [atEnd]
  rfl

end Respanning

lemma Margin.into (h : E.Margin k' c s) (hk : k.into k' = true) : E.Margin k c s := by
  obtain ⟨free, left, admits⟩ := Stand.into_le hk
  refine ⟨h.omission, fun m hm => ?_, fun ending => ?_, admits _ h.admits⟩
  · exact Nat.le_trans (Nat.add_le_add_left free _) (h.free m hm)
  · exact Nat.le_trans left (h.left ending)

lemma Related.into (h : E.Related k c s s') (hk : k.into k' = true) : E.Related k' c s s' := by
  refine ⟨h.tokens, h.allowsIn, h.faults, fun some => h.previous ?_⟩
  rintro rfl
  cases k' <;> first | exact some rfl | cases hk

/-- The edited tokens are not fewer. -/
lemma Related.ahead_le (h : E.Related k c s s') : s.ahead.length ≤ s'.ahead.length := by
  have length := congrArg List.length h.tokens
  have more := length_le_apply c s.tokens
  rw [← length] at more
  simpa [ReaderState.tokens] using more

end Edit

end States

/-! ### Rules -/

namespace Reader

section Rules

variable {α β γ δ : Type} {E : Edit} {place place' : ReaderState → Prop} {k k' m : Stand}
  {d i j n : Nat} {g : α → β} {p p' : Reader α} {q q' : Reader β}

lemma bind_eq_ok {f : α → Reader γ} {s t : ReaderState} {b : γ} (h : (p >>= f) s = .ok b t) :
    ∃ a u, p s = .ok a u ∧ f a u = .ok b t := by
  change andThen p f s = _ at h
  unfold andThen at h
  cases hp : p s with
  | ok a u =>
    rw [hp] at h
    exact ⟨a, u, rfl, h⟩
  | fault fault u => rw [hp] at h; cases h
  | stuck => rw [hp] at h; cases h

lemma accept_eq_ok {kind : TokenKind} {b : Bool} {s t : ReaderState}
    (h : accept kind s = .ok b t) : (s.current.kind = kind ∧ b = true ∧ t = step s) ∨
      (s.current.kind ≠ kind ∧ b = false ∧ t = s) := by
  obtain ⟨found, u, first, second⟩ := bind_eq_ok h
  cases first
  by_cases here : s.current.kind = kind
  · rw [if_pos (by simpa using here)] at second
    cases second
    exact .inl ⟨here, rfl, rfl⟩
  · rw [if_neg (by simpa using here)] at second
    cases second
    exact .inr ⟨here, rfl, rfl⟩

lemma expect_eq_ok {kind : TokenKind} {what : Expectation} {a : Token} {s t : ReaderState}
    (h : expect kind what s = .ok a t) :
    s.current.kind = kind ∧ a = s.current ∧ t = step s := by
  obtain ⟨found, u, first, second⟩ := bind_eq_ok h
  cases first
  by_cases here : s.current.kind = kind
  · rw [if_pos (by simpa using here)] at second
    cases second
    exact ⟨here, rfl, rfl⟩
  · rw [if_neg (by simpa using here)] at second
    cases second

/-- A sequence, of which the second part starts at another place. -/
lemma Survives.andThen {h : γ → δ} {f : α → Reader γ} {f' : β → Reader δ}
    {after : α → ReaderState → Prop} (hp : Survives E place k m i d g p q)
    (next : ∀ {s a u}, place s → p s = .ok a u → after a u)
    (hf : ∀ a, Survives E (after a) m k' d j h (f a) (f' (g a))) :
    Survives E place k k' i j h (p >>= f) (q >>= f') := by
  intro s b t here run faults
  obtain ⟨a, u, first, second⟩ := bind_eq_ok run
  obtain ⟨leads', runs'⟩ := hf a u b t (next here first) second faults
  obtain ⟨leads, runs⟩ := hp s a u here first leads'.faults
  refine ⟨leads.trans leads', fun ends known => ?_⟩
  have run := runs (ends.suffix leads'.suffix) known
  have run' := runs' ends run.known
  obtain ⟨taken, split, depth⟩ := run.nested
  obtain ⟨taken', split', depth'⟩ := run'.nested
  refine ⟨run'.known, ⟨taken ++ taken', ?_, ?_⟩, ?_, ?_⟩
  · rw [split, split', List.append_assoc]
  · rw [depthAfter_append, depth]
    exact depth'
  · intro c c' picks margin
    obtain ⟨c₁, c₂, rfl, picks₁, picks₂⟩ := picks.split leads leads'
    rw [List.append_assoc]
    exact run.margin picks₁ (run'.margin picks₂ margin)
  · intro c c' s' picks margin related
    obtain ⟨c₁, c₂, rfl, picks₁, picks₂⟩ := picks.split leads leads'
    rw [List.append_assoc] at related
    obtain ⟨u', hq, related'⟩ := run.edited picks₁ (run'.margin picks₂ margin) related
    obtain ⟨t', hf', related''⟩ := run'.edited picks₂ margin related'
    exact ⟨t', (bind_of_ok hq).trans hf', related''⟩

lemma Survives.bind {h : γ → δ} {f : α → Reader γ} {f' : β → Reader δ}
    (hp : Survives E place k m i d g p q)
    (hf : ∀ a, Survives E anywhere m k' d j h (f a) (f' (g a))) :
    Survives E place k k' i j h (p >>= f) (q >>= f') := by
  refine hp.andThen ?_ hf
  exact fun _ _ => trivial

/-- What stays at the same state. -/
lemma survives_stay {a : α} {b : β} (hp : ∀ s, p s = .ok a s) (hq : ∀ s, q s = .ok b s)
    (hb : b = g a) (hk : k.into k' = true) : Survives E place k k' n n g p q := by
  subst hb
  intro s a' t _ run faults
  rw [hp s] at run
  cases run
  refine ⟨.refl faults, fun _ known => ⟨known.into hk, ⟨[], rfl, rfl⟩, ?_, ?_⟩⟩
  · intro c c' picks margin
    rw [Edit.picks_nil rfl picks]
    exact margin.into hk
  · intro c c' s' picks margin related
    rw [Edit.picks_nil rfl picks] at related
    exact ⟨s', hq s', related.into hk⟩

lemma survives_pure {a : α} {b : β} (hb : b = g a) :
    Survives E place k k n n g (pure a) (pure b) :=
  survives_stay (fun _ => rfl) (fun _ => rfl) hb Stand.into_self

/-- A reader may start where less is left alone, and end where more is. -/
lemma Survives.between {k₀ k₁ : Stand} (h : Survives E place k k' i j g p q)
    (hs : k₀.into k = true) (he : k'.into k₁ = true) : Survives E place k₀ k₁ i j g p q := by
  intro s a t here run faults
  obtain ⟨leads, runs⟩ := h s a t here run faults
  refine ⟨leads, fun ends known => ?_⟩
  have run := runs ends (known.into hs)
  refine ⟨run.known.into he, run.nested, ?_, ?_⟩
  · exact fun picks margin => (run.margin picks (margin.into he)).into hs
  · intro c c' s' picks margin related
    obtain ⟨t', hq, related'⟩ := run.edited picks (margin.into he) (related.into hs)
    exact ⟨t', hq, related'.into he⟩

lemma Survives.upTo (h : Survives E place k k' i j g p q) (hk : k'.into m = true) :
    Survives E place k m i j g p q := h.between Stand.into_self hk

lemma Survives.within (h : Survives E place k k' i j g p q) (hp : ∀ s, place' s → place s) :
    Survives E place' k k' i j g p q := fun s a t here => h s a t (hp s here)

lemma Survives.wherever (h : Survives E anywhere k k' i j g p q) :
    Survives E place k k' i j g p q := h.within fun _ _ => trivial

/-- What starts anew may start wherever a token is left alone. -/
lemma Survives.from (h : Survives E anywhere .fresh k' i j g p q) (hk : k.into .fresh = true) :
    Survives E place k k' i j g p q := (h.between hk Stand.into_self).wherever

/-- What every success has seen is known of the place. -/
lemma Survives.knowing {fact : ReaderState → Prop} (known : ∀ s a t, p s = .ok a t → fact s)
    (h : Survives E (fun s => place s ∧ fact s) k k' i j g p q) :
    Survives E place k k' i j g p q :=
  fun s a t here run => h s a t ⟨here, known s a t run⟩ run

lemma Survives.cases (fact : ReaderState → Prop)
    (h : Survives E (fun s => place s ∧ fact s) k k' i j g p q)
    (h' : Survives E (fun s => place s ∧ ¬ fact s) k k' i j g p q) :
    Survives E place k k' i j g p q := by
  intro s a t here
  by_cases known : fact s
  · exact h s a t ⟨here, known⟩
  · exact h' s a t ⟨here, known⟩

lemma survives_nowhere (h : ∀ s, ¬ place s) : Survives E place k k' i j g p q :=
  fun s _ _ here => absurd here (h s)

lemma Survives.ite {c : Prop} [Decidable c] (hp : c → Survives E place k k' i j g p q)
    (hq : ¬ c → Survives E place k k' i j g p' q') :
    Survives E place k k' i j g (if c then p else p') (if c then q else q') := by
  split
  · exact hp ‹c›
  · exact hq ‹¬ c›

lemma survives_fail {error : SyntaxError} {span : Span} :
    Survives E place k k' i j g (fail error span) q := fun _ _ _ _ run => nomatch run

lemma survives_failHere {error : TokenKind → SyntaxError} :
    Survives E place k k' i j g (failHere error) q := fun _ _ _ _ run => nomatch run

end Rules

/-! ### The operator `in` -/

section In

variable {α β : Type} {E : Edit} {k k' : Stand} {i j : Nat} {g : α → β} {p : Reader α}
  {q : Reader β}

lemma withIn_eq_ok {allows : Bool} {s t : ReaderState} {a : α} : withIn allows p s = .ok a t ↔
    ∃ u, p { s with allowsIn := allows } = .ok a u ∧ t = { u with allowsIn := s.allowsIn } := by
  unfold Reader.withIn
  cases p { s with allowsIn := allows } <;> simp [eq_comm]

lemma allowingIn_eq_ok {s t : ReaderState} {a : α} : allowingIn p s = .ok a t ↔
    ∃ u, p { s with allowsIn := true } = .ok a u ∧ t = { u with allowsIn := s.allowsIn } := by
  change andThen p (fun value u => .ok value { u with allowsIn := s.allowsIn })
    { s with allowsIn := true } = _ ↔ _
  unfold Reader.andThen
  cases p { s with allowsIn := true } <;> simp [eq_comm]

/-- Whether `in` is an operator does not matter to an edit. -/
lemma Survives.mode (allows : Bool) {p' : Reader α} {q' : Reader β}
    (hp : ∀ {s t a}, p' s = .ok a t →
      ∃ u, p { s with allowsIn := allows } = .ok a u ∧ t = { u with allowsIn := s.allowsIn })
    (hq : ∀ {s u b}, q { s with allowsIn := allows } = .ok b u →
      q' s = .ok b { u with allowsIn := s.allowsIn })
    (h : Survives E anywhere k k' i j g p q) : Survives E anywhere k k' i j g p' q' := by
  intro s a t _ run faults
  obtain ⟨u, run', rfl⟩ := hp run
  obtain ⟨leads, runs⟩ := h _ a u trivial run' faults
  refine ⟨⟨leads.faults, leads.omitted, leads.tokens, rfl⟩, fun ends known => ?_⟩
  have inside : E.Known k { s with allowsIn := allows } :=
    ⟨fun ending => ⟨(known.steady ending).semicolon, (known.steady ending).arrow⟩, known.previous⟩
  have run := runs ends inside
  refine ⟨⟨fun ending => ?_, run.known.previous⟩, run.nested, fun picks margin => ?_, ?_⟩
  · exact ⟨(run.known.steady ending).semicolon, (run.known.steady ending).arrow⟩
  · have before := run.margin picks ⟨margin.omission, margin.free, margin.left, margin.admits⟩
    exact ⟨before.omission, before.free, before.left, before.admits⟩
  · intro c c' s' picks margin related
    have start : E.Related k (c ++ c') { s with allowsIn := allows }
        { s' with allowsIn := allows } :=
      ⟨related.tokens, rfl, related.faults, related.previous⟩
    obtain ⟨u', hq', stop⟩ := run.edited picks
      ⟨margin.omission, margin.free, margin.left, margin.admits⟩ start
    exact ⟨_, hq hq', stop.tokens, related.allowsIn, stop.faults, stop.previous⟩

lemma Survives.withIn (h : Survives E anywhere k k' i j g p q) (allows : Bool) :
    Survives E anywhere k k' i j g (withIn allows p) (withIn allows q) :=
  h.mode allows withIn_eq_ok.mp fun run => withIn_eq_ok.mpr ⟨_, run, rfl⟩

lemma Survives.allowingIn (h : Survives E anywhere k k' i j g p q) :
    Survives E anywhere k k' i j g (allowingIn p) (allowingIn q) :=
  h.mode true allowingIn_eq_ok.mp fun run => allowingIn_eq_ok.mpr ⟨_, run, rfl⟩

end In

/-! ### Loops -/

section Loops

variable {E : Edit} {k : Stand} {n : Nat}

/-- A loop whose bound is the number of tokens left: the edited tokens are not fewer. -/
lemma Survives.bounded {α β : Type} {k' : Stand} {g : α → β} {body : Nat → Reader α}
    {body' : Nat → Reader β}
    (h : ∀ bound bound', bound ≤ bound' →
      Survives E anywhere k k' n n g (body bound) (body' bound')) :
    Survives E anywhere k k' n n g (fun s => body (s.ahead.length + 1) s)
      (fun s => body' (s.ahead.length + 1) s) := by
  intro s a t _ run faults
  obtain ⟨leads, runs⟩ := h _ _ (Nat.le_refl _) s a t trivial run faults
  refine ⟨leads, fun ends known => ?_⟩
  obtain ⟨known', nested, margin, -⟩ := runs ends known
  refine ⟨known', nested, margin, fun {c c' s'} picks margin' related => ?_⟩
  have more := related.ahead_le
  have run' := (h _ (s'.ahead.length + 1) (by omega) s a t trivial run faults).2 ends known
  exact run'.edited picks margin' related

lemma Survives.repeatedAtMost {turn turn' : Reader Turn}
    (h : Survives E anywhere k k n n (Turn.respan E.spans) turn turn') {bound bound' : Nat}
    (le : bound ≤ bound') :
    Survives E anywhere k k n n (List.map (·.respan E.spans)) (repeatedAtMost turn bound)
      (repeatedAtMost turn' bound') := by
  induction bound generalizing bound' with
  | zero => exact fun _ _ _ _ run => nomatch run
  | succ bound ih =>
    obtain ⟨bound', rfl⟩ := Nat.exists_eq_add_of_le' (Nat.le_trans (Nat.le_add_left 1 bound) le)
    refine h.bind fun u => ?_
    cases u with
    | last items => exact survives_pure rfl
    | more items =>
      refine (ih (Nat.le_of_succ_le_succ le)).bind fun more => survives_pure ?_
      exact (List.map_append ..).symm

lemma Survives.repeatedly {turn turn' : Reader Turn}
    (h : Survives E anywhere k k n n (Turn.respan E.spans) turn turn') :
    Survives E anywhere k k n n (List.map (·.respan E.spans)) (repeatedly turn)
      (repeatedly turn') := .bounded fun _ _ le => h.repeatedAtMost le

lemma Survives.grownAtMost {turn turn' : Node → Reader (Option Node)}
    (h : ∀ m, Survives E anywhere k k n n (Option.map (·.respan E.spans)) (turn m)
      (turn' (m.respan E.spans))) {bound bound' : Nat} (le : bound ≤ bound') (m : Node) :
    Endures E k k n (grownAtMost turn bound m) (grownAtMost turn' bound' (m.respan E.spans)) := by
  induction bound generalizing bound' m with
  | zero => exact fun _ _ _ _ run => nomatch run
  | succ bound ih =>
    obtain ⟨bound', rfl⟩ := Nat.exists_eq_add_of_le' (Nat.le_trans (Nat.le_add_left 1 bound) le)
    refine (h m).bind fun r => ?_
    cases r with
    | none => exact survives_pure rfl
    | some m' => exact ih (Nat.le_of_succ_le_succ le) m'

lemma Survives.growing {turn turn' : Node → Reader (Option Node)}
    (h : ∀ m, Survives E anywhere k k n n (Option.map (·.respan E.spans)) (turn m)
      (turn' (m.respan E.spans))) (m : Node) :
    Endures E k k n (growing turn m) (growing turn' (m.respan E.spans)) :=
  .bounded fun _ _ le => .grownAtMost h le m

/-! ### Recovery -/

lemma faults_step (s : ReaderState) : (step s).faults = s.faults := by
  unfold step
  split
  · rfl
  · split <;> rfl

lemma faults_skipAhead (bound : Nat) (s : ReaderState) :
    (skipAhead bound s).faults = s.faults := by
  induction bound generalizing s with
  | zero => rfl
  | succ bound ih =>
    unfold skipAhead
    split
    · rfl
    · rw [ih, faults_step]

/-- Where no fault was recorded, none was recovered from. -/
lemma Survives.recovering {place : ReaderState → Prop} {k k' : Stand} {p q : Reader Node}
    (h : Survives E place k k' n n (·.respan E.spans) p q) :
    Survives E place k k' n n (List.map (·.respan E.spans)) (recovering p) (recovering q) := by
  intro s l t here run faults
  unfold Reader.recovering at run
  cases hp : p s with
  | stuck => rw [hp] at run; cases run
  | fault fault u =>
    rw [hp] at run
    cases run
    rw [toNextStatement, faults_skipAhead, faults_step] at faults
    exact absurd faults (List.append_ne_nil_of_right_ne_nil _ (List.cons_ne_nil _ _))
  | ok m u =>
    rw [hp] at run
    cases run
    obtain ⟨leads, runs⟩ := h s m t here hp faults
    refine ⟨leads, fun ends known => ?_⟩
    have run := runs ends known
    refine ⟨run.known, run.nested, run.margin, fun {c c' s'} picks margin related => ?_⟩
    obtain ⟨t', hq, related'⟩ := run.edited picks margin related
    refine ⟨t', ?_, related'⟩
    unfold Reader.recovering
    rw [hq]
    rfl

end Loops

end Reader

end ModuleLint
