import Mathlib.Tactic.Common
import ModuleLint.Proofs.Grammar.Ahead

/-!
How readers of single tokens, and lists of items, survive an edit.

A token that is taken is left alone, and so is the one that a reader is told apart by. Where a
semicolon may be written, a reader that does not take the token there goes the same way before the
semicolon as before the token.
-/

namespace ModuleLint

open Grammar

namespace Reader

open Edit

/-! ### Taking tokens -/

section Take

variable {α β : Type} {E : Edit} {place : ReaderState → Prop} {k m : Stand} {i j n : Nat}
  {c : List E.Semicolon} {s s' : ReaderState} {kind : TokenKind}

lemma ne_eof_of_depthAfter (h : kind.depthAfter i = some j) : kind ≠ .eof := by
  rintro rfl
  cases h

/-- A token that is taken is left alone. -/
lemma advance_survives (h : ∀ s, place s →
      k.takes s.current.kind m = true ∧ s.current.kind.depthAfter i = some j) :
    Survives E place k m i j (·.respan E.spans) advance advance := by
  intro s a t here run faults
  cases run
  rw [faults_step] at faults
  refine ⟨step_leads faults, fun ends known => ?_⟩
  obtain ⟨takes, depth⟩ := h s here
  have noEnd := ne_eof_of_depthAfter depth
  obtain ⟨x, rest, ahead⟩ := exists_ahead ends noEnd
  have taken := step_of_ahead noEnd ahead
  have picks_nil {c : List E.Semicolon} : E.Picks c s (step s) → c = [] :=
    Edit.picks_nil (by rw [taken])
  refine ⟨known.of_leads (step_leads faults) fun loose => ?_, ⟨[s.current], ?_, ?_⟩, ?_, ?_⟩
  · rw [taken]
    exact Stand.ne_semi_of_takes (loose ▸ takes)
  · rw [taken, ReaderState.tokens, ahead]
    rfl
  · rw [depthAfter, depth]
    rfl
  · intro c c' picks margin
    rw [picks_nil picks]
    exact margin.take takes noEnd ahead
  · intro c c' s' picks margin related
    rw [picks_nil picks] at related
    exact ⟨step s', related.take noEnd ahead (margin.place_lt noEnd ahead)⟩

lemma advance_survives_at (takes : k.takes kind m = true) (depth : kind.depthAfter i = some j) :
    Survives E (·.current.kind = kind) k m i j (·.respan E.spans) advance advance :=
  advance_survives fun s here => by rw [here]; exact ⟨takes, depth⟩

/-- The token, if it is of the kind, is taken at the place. -/
lemma advance_survives_of_kind (takes : k.takes kind m = true)
    (depth : kind.depthAfter i = some j) :
    Survives E (fun s => place s ∧ s.current.kind = kind) k m i j (·.respan E.spans) advance
      advance := (advance_survives_at takes depth).within fun _ here => here.2

lemma advance_survives_ordinary (h : ∀ s, place s → s.current.kind.isOrdinary = true)
    (takes : k.takes .identifier m = true) :
    Survives E place k m n n (·.respan E.spans) advance advance :=
  advance_survives fun s here =>
    ⟨Stand.takes_of_isOrdinary (h s here) takes, TokenKind.depthAfter_of_isOrdinary (h s here)⟩

end Take

/-! ### Looking at tokens -/

section Look

variable {α β γ δ : Type} {E : Edit} {place : ReaderState → Prop} {k k' : Stand} {i j n : Nat}
  {g : α → β} {p p' : Reader α} {q q' : Reader β}

/-- What is read off the state decides at which stand the rest starts. It is the same on edited
tokens, as far as it must be. -/
lemma Survives.look {o : ReaderState → γ} {o' : ReaderState → δ} {r : γ → δ} {m : γ → Stand}
    {f : γ → Reader α} {f' : δ → Reader β} (into : ∀ v, k.into (m v) = true)
    (same : ∀ {c s s'}, place s → E.Known k s → E.Margin (m (o s)) c s → E.Related k c s s' →
      o' s' = r (o s))
    (h : ∀ v, Survives E (fun s => place s ∧ o s = v) (m v) k' i j g (f v) (f' (r v))) :
    Survives E place k k' i j g (Reader.look o >>= f) (Reader.look o' >>= f') := by
  intro s a t here run faults
  obtain ⟨leads, runs⟩ := h (o s) s a t ⟨here, rfl⟩ run faults
  refine ⟨leads, fun ends known => ?_⟩
  have run := runs ends (known.into (into _))
  refine ⟨run.known, run.nested, fun picks margin => (run.margin picks margin).into (into _), ?_⟩
  intro c c' s' picks margin related
  obtain ⟨t', hq, related'⟩ := run.edited picks margin (related.into (into _))
  refine ⟨t', ?_, related'⟩
  change f' (o' s') s' = _
  rw [same here known (run.margin picks margin) related]
  exact hq

lemma Survives.current {f : Token → Reader α} {f' : Token → Reader β} (hk : k.isInside = true)
    (h : ∀ t, Survives E (fun s => place s ∧ s.current = t) k k' i j g (f t)
      (f' (t.respan E.spans))) :
    Survives E place k k' i j g (Reader.current >>= f) (Reader.current >>= f') :=
  .look (fun _ => Stand.into_self) (fun _ _ margin related => (related.head margin hk).1) h

/-- What depends on the next token alone, where it is left alone. -/
lemma Survives.same {o : ReaderState → γ} {f : γ → Reader α} {f' : γ → Reader β}
    (hk : k.isInside = true)
    (ho : ∀ {s s' : ReaderState}, s'.current = s.current.respan E.spans → s'.allowsIn = s.allowsIn →
      o s' = o s)
    (h : ∀ v, Survives E (fun s => place s ∧ o s = v) k k' i j g (f v) (f' v)) :
    Survives E place k k' i j g (Reader.look o >>= f) (Reader.look o >>= f') :=
  .look (r := id) (fun _ => Stand.into_self)
    (fun _ _ margin related => ho (related.head margin hk).1 related.allowsIn) h

lemma Survives.here {f : Span → Reader α} {f' : Span → Reader β} (hk : (k != .done) = true)
    (h : ∀ span, Survives E place k k' i j g (f span) (f' (E.spans.span span))) :
    Survives E place k k' i j g (Reader.here >>= f) (Reader.here >>= f') := by
  refine .look (fun _ => Stand.into_self) (fun {c s s'} _ known margin related => ?_) fun span =>
    (h span).within fun _ here => here.1
  by_cases loose : k = .loose
  · subst loose
    obtain current | ⟨-, span⟩ := related.looseHead known
    · exact congrArg Token.span current
    · exact (span _).symm
  · have inside := Stand.isInside_of_ne (bne_iff_ne.mp hk) loose
    exact congrArg Token.span (related.head margin inside).1

/-- A test of the next token, which a written semicolon leads to `b`. -/
lemma Survives.test {o : ReaderState → Bool} {f : Bool → Reader α} {f' : Bool → Reader β}
    (b : Bool) (hk : k ≠ .done)
    (ho : ∀ {s s' : ReaderState}, s'.current = s.current.respan E.spans → s'.allowsIn = s.allowsIn →
      o s' = o s)
    (semi : k = .loose → ∀ s, s.current.kind = .semi → o s = b)
    (hp : Survives E (fun s => place s ∧ o s = !b) k.firm k' i j g (f !b) (f' !b))
    (hq : Survives E (fun s => place s ∧ o s = b) k k' i j g (f b) (f' b)) :
    Survives E place k k' i j g (Reader.look o >>= f) (Reader.look o >>= f') := by
  refine .look (r := id) (m := fun v => if v = b then k else k.firm) (fun v => ?_) ?_ fun v => ?_
  · split
    · exact Stand.into_self
    · exact Stand.into_firm
  · intro c s s' _ known margin related
    split at margin
    case isFalse => exact ho (related.head margin Stand.isInside_firm).1 related.allowsIn
    case isTrue here =>
      by_cases loose : k = .loose
      · subst loose
        obtain current | ⟨kind, -⟩ := related.looseHead known
        · exact ho current related.allowsIn
        · rw [semi rfl _ kind, id, here]
      · have inside := Stand.isInside_of_ne hk loose
        exact ho (related.head margin inside).1 related.allowsIn
  · split
    case isTrue here =>
      subst here
      exact hq
    case isFalse here =>
      obtain rfl : v = !b := by cases v <;> cases b <;> simp_all
      exact hp

/-- A test of more than the next token, where it comes out the same. -/
lemma Survives.told {o : ReaderState → Bool}
    (same : ∀ {c s s'}, place s → E.Related k c s s' → E.Known k s → E.Margin k c s → o s' = o s)
    (hp : Survives E (fun s => place s ∧ o s = true) k k' i j g p q)
    (hq : Survives E (fun s => place s ∧ o s = false) k k' i j g p' q') :
    Survives E place k k' i j g (Reader.look o >>= fun b => if b then p else p')
      (Reader.look o >>= fun b => if b then q else q') :=
  .look (r := id) (fun _ => Stand.into_self)
    (fun here known margin related => same here related known margin)
    (Bool.rec hq hp)

lemma Survives.isAt {kind : TokenKind} (hk : k.tells kind = true)
    (hp : Survives E (fun s => place s ∧ s.current.kind = kind) k.firm k' i j g p q)
    (hq : Survives E place k k' i j g p' q') :
    Survives E place k k' i j g (isAt kind >>= fun b => if b then p else p')
      (isAt kind >>= fun b => if b then q else q') := by
  obtain ⟨notDone, semi⟩ := Stand.tells_iff.mp hk
  refine .test false notDone (fun h _ => by rw [h]; rfl) (fun loose s ht => ?_) ?_ ?_
  · rw [ht]
    exact beq_false_of_ne (semi loose).symm
  · exact hp.within fun s here => ⟨here.1, beq_iff_eq.mp here.2⟩
  · exact hq.within fun s here => here.1

lemma Survives.isAtAny {kinds : List TokenKind} (hk : k.isInside = true)
    (hp : Survives E (fun s => place s ∧ s.current.kind ∈ kinds) k k' i j g p q)
    (hq : Survives E place k k' i j g p' q') :
    Survives E place k k' i j g (isAtAny kinds >>= fun b => if b then p else p')
      (isAtAny kinds >>= fun b => if b then q else q') := by
  have firm := Stand.firm_of_isInside hk
  refine .test false (by rintro rfl; cases hk) (fun h _ => by rw [h]; rfl)
    (by rintro rfl; cases hk) ?_ ?_
  · rw [firm]
    exact hp.within fun s here => ⟨here.1, List.contains_iff_mem.mp here.2⟩
  · exact hq.within fun s here => here.1

/-- What is read off the state is tested first and used then. -/
lemma look_split {o : ReaderState → γ} {P : γ → Prop} [DecidablePred P] {f f' : γ → Reader α} :
    (Reader.look o >>= fun v => if P v then f v else f' v) =
      (Reader.look (fun s => decide (P (o s))) >>= fun b =>
        if b then Reader.look o >>= f else Reader.look o >>= f') := by
  funext s
  change (if P (o s) then f (o s) else f' (o s)) s =
    (if decide (P (o s)) = true then Reader.look o >>= f else Reader.look o >>= f') s
  by_cases h : P (o s)
  · rw [if_pos h, if_pos (decide_eq_true h)]
    rfl
  · rw [if_neg h, if_neg fun yes => h (of_decide_eq_true yes)]
    rfl

lemma Survives.split {o : ReaderState → γ} {P : γ → Prop} [DecidablePred P]
    {f f' : γ → Reader α} {h h' : γ → Reader β}
    (survives : Survives E place k k' i j g
      (Reader.look (fun s => decide (P (o s))) >>= fun b =>
        if b then Reader.look o >>= f else Reader.look o >>= f')
      (Reader.look (fun s => decide (P (o s))) >>= fun b =>
        if b then Reader.look o >>= h else Reader.look o >>= h')) :
    Survives E place k k' i j g (Reader.look o >>= fun v => if P v then f v else f' v)
      (Reader.look o >>= fun v => if P v then h v else h' v) := by
  rw [look_split (o := o) (P := P), look_split (o := o) (P := P)]
  exact survives

/-! ### Tokens that may be there -/

lemma accept_bind {kind : TokenKind} {f : Bool → Reader α} :
    (accept kind >>= f) = (Reader.isAt kind >>= fun b =>
      if b then advance >>= fun _ => f true else f false) := by
  funext s
  change ((if (s.current.kind == kind) = true then advance >>= fun _ => pure true
    else pure false) >>= f) s = (if (s.current.kind == kind) = true then _ else _ : Reader α) s
  split <;> rfl

lemma expect_survives {kind : TokenKind} {what : Expectation} {m : Stand}
    (hk : k.tells kind = true) (takes : k.firm.takes kind m = true)
    (depth : kind.depthAfter i = some j) :
    Survives E place k m i j (·.respan E.spans) (expect kind what) (expect kind what) :=
  .isAt hk (advance_survives_of_kind takes depth) survives_failHere

lemma Survives.accept {kind : TokenKind} {m : Stand} {d : Nat} (hk : k.tells kind = true)
    (takes : k.firm.takes kind m = true)
    (depth : kind.depthAfter i = some d) (hp : Survives E anywhere m k' d j g p q)
    (hq : Survives E place k k' i j g p' q') :
    Survives E place k k' i j g (accept kind >>= fun b => if b then p else p')
      (accept kind >>= fun b => if b then q else q') := by
  rw [accept_bind, accept_bind]
  exact .isAt hk ((advance_survives_of_kind takes depth).bind fun _ => hp) hq

lemma accept_survives {kind : TokenKind} (hk : k.isInside = true) (takes : k.takes kind k = true)
    (depth : kind.depthAfter n = some n) :
    Survives E place k k n n id (Reader.accept kind) (Reader.accept kind) := by
  have firm := Stand.firm_of_isInside hk
  refine .isAt (Stand.tells_of_isInside hk) ?_ ?_
  · rw [firm]
    exact (advance_survives_of_kind takes depth).bind fun _ => survives_pure rfl
  · exact survives_pure rfl

/-- The semicolon after a `do` loop may always be missing. -/
lemma accept_semi_survives :
    Survives E place .loose .done n n id (Reader.accept .semi) (Reader.accept .semi) := by
  refine .look (r := id) (m := fun b => if b then .amid else .done) (by decide) ?_ fun b => ?_
  · intro c s s' _ known margin related
    have free : ∀ m ∈ c, m.place < s.ahead.length := fun m hm => by
      have free := margin.free m hm
      split at free <;> exact free
    rw [(related.head_of_free free known.ahead_ne_nil).1]
    rfl
  · cases b with
    | true =>
      refine (advance_survives fun s here => ?_).bind fun _ => survives_pure rfl
      rw [beq_iff_eq.mp here.2]
      exact ⟨rfl, rfl⟩
    | false => exact survives_pure rfl

/-- What replaces the end does not go on a finished `if`. -/
lemma Survives.acceptElse (hp : Survives E anywhere .fresh k' n n g p q)
    (hq : Survives E place .done k' n n g p' q') :
    Survives E place .done k' n n g (Reader.accept .kwElse >>= fun b => if b then p else p')
      (Reader.accept .kwElse >>= fun b => if b then q else q') := by
  rw [accept_bind, accept_bind]
  refine .look (r := id) (m := fun b => if b then .inside else .done) (by decide) ?_ fun b => ?_
  · intro c s s' _ known margin related
    by_cases here : s.current.kind = .kwElse
    · rw [beq_iff_eq.mpr here] at margin ⊢
      rw [(related.head margin rfl).1]
      exact beq_iff_eq.mpr here
    · rw [beq_false_of_ne here] at margin ⊢
      obtain current | other := related.doneHead margin
      · rw [current]
        exact beq_false_of_ne here
      · exact beq_false_of_ne other
  · cases b with
    | true =>
      refine (advance_survives fun s here => ?_).bind fun _ => hp
      rw [beq_iff_eq.mp here.2]
      exact ⟨rfl, rfl⟩
    | false => exact hq.within fun s here => here.1

end Look

/-! ### Semicolons and words -/

section Semicolons

variable {E : Edit} {place : ReaderState → Prop} {k : Stand} {n : Nat}
  {c c' : List E.Semicolon} {s s' : ReaderState}

/-- The state after a semicolon was left out. -/
abbrev omitting (s : ReaderState) : ReaderState :=
  { s with omitted := s.omitted ++ [s.ahead.length] }

lemma semicolon_omits {t : ReaderState} (h : s.current.kind ≠ .semi)
    (run : semicolon s = .ok () t) :
    (s.current.kind = .rbrace ∨ s.current.kind = .eof ∨ s.current.newlineBefore) ∧
      t = omitting s := by
  unfold semicolon at run
  rw [accept_bind] at run
  obtain ⟨b, u, first, second⟩ := bind_eq_ok run
  cases first
  rw [if_neg fun hb => h (beq_iff_eq.mp hb)] at second
  obtain ⟨t, u, first, second⟩ := bind_eq_ok second
  cases first
  split at second
  case isTrue omissible =>
    cases second
    exact ⟨omissible, rfl⟩
  case isFalse => cases second

lemma semicolon_of_omissible (h : s.current.kind ≠ .semi)
    (omissible : s.current.kind = .rbrace ∨ s.current.kind = .eof ∨ s.current.newlineBefore) :
    semicolon s = .ok () (omitting s) := by
  unfold semicolon
  rw [accept_bind]
  refine (bind_of_ok rfl).trans ?_
  rw [if_neg fun hb => h (beq_iff_eq.mp hb)]
  refine (bind_of_ok rfl).trans ?_
  rw [if_pos omissible]
  rfl

lemma semicolon_of_semi (h : s.current.kind = .semi) : semicolon s = .ok () (step s) := by
  unfold semicolon
  rw [accept_bind]
  refine (bind_of_ok rfl).trans ?_
  rw [if_pos (beq_iff_eq.mpr h)]
  rfl

/-- A semicolon is written or not where one was left out. -/
lemma picks_omitting (h : E.Picks c s (omitting s)) :
    c = [] ∨ ∃ m, c = [m] ∧ m.place = s.ahead.length := by
  obtain ⟨omitted, more, sub⟩ := h
  obtain rfl := List.append_cancel_left more
  cases c with
  | nil => exact .inl rfl
  | cons m c =>
    have few : c.length + 1 ≤ 1 := by simpa using sub.length_le
    obtain rfl : c = [] := List.eq_nil_of_length_eq_zero (by omega)
    exact .inr ⟨m, rfl, List.mem_singleton.mp (List.singleton_sublist.mp sub)⟩

/-- Where a semicolon is missing, one may stand. -/
lemma margin_omitting (omissible : s.current.kind = .rbrace ∨ s.current.kind = .eof ∨
      s.current.newlineBefore) (picks : E.Picks c s (omitting s))
    (margin : E.Margin .done c' (omitting s)) : E.Margin .loose (c ++ c') s := by
  have here : ∀ m ∈ c, m.place = s.ahead.length := by
    obtain rfl | ⟨m, rfl, place⟩ := picks_omitting picks
    · exact fun _ hm => nomatch hm
    · exact List.forall_mem_singleton.mpr place
  have admits := margin.admits
  simp only [Stand.admits, Bool.and_eq_true, bne_iff_ne] at admits
  refine ⟨List.forall_mem_append.mpr ⟨fun m hm => ?_, margin.omission⟩,
    List.forall_mem_append.mpr ⟨fun m hm => Nat.le_of_eq (here m hm), fun m hm => ?_⟩,
    fun _ => Nat.zero_le _, rfl⟩
  · rw [here m hm]
    exact ⟨[], s.current, s.ahead, rfl, rfl, omissible, admits.1, admits.2⟩
  · exact Nat.le_of_lt (margin.free m hm)

/-- A written semicolon is taken where there was none. -/
lemma semicolon_written {m : E.Semicolon} (place : m.place = s.ahead.length)
    (margin : E.Margin .done c' (omitting s)) (related : E.Related .loose (m :: c') s s') :
    ∃ t', semicolon s' = .ok () t' ∧ E.Related .done c' (omitting s) t' := by
  have none : s.ahead = [] → E.ending = none := fun _ => m.noEnding
  have free : ∀ m ∈ c', m.place ≠ s.ahead.length := fun m hm => Nat.ne_of_lt (margin.free m hm)
  have written : E.written (m :: c') s.ahead.length = [m.token] := by
    have others := written_eq_nil free
    unfold written at others ⊢
    rw [List.filter_cons_of_pos (by exact decide_eq_true place), List.map_cons, others]
  have tokens := related.tokens
  rw [ReaderState.tokens, ReaderState.tokens, apply_cons none, written] at tokens
  obtain ⟨current, ahead⟩ := List.cons.inj tokens
  refine ⟨_, semicolon_of_semi (current ▸ m.kind), ?_⟩
  have taken : step s' = { s' with previous := m.token, current := s.current.respan E.spans,
                                   ahead := E.apply c' s.ahead } := by
    rw [apply_outside (Nat.le_of_eq place.symm)] at ahead
    simp [step, current, ahead, m.kind]
  rw [taken]
  refine ⟨?_, related.allowsIn, related.faults, fun _ => (m.span _).symm⟩
  exact (apply_free none free).symm

/-- **A missing semicolon** may as well be written. -/
lemma semicolon_survives : Survives E place .loose .done n n id semicolon semicolon := by
  refine .cases (·.current.kind = .semi) ?_ ?_
  · unfold semicolon
    rw [accept_bind]
    refine .look (r := id) (m := fun b => if b then .amid else .loose) (by decide) ?_ fun b => ?_
    · intro c s s' here known margin related
      rw [beq_iff_eq.mpr here.2] at margin ⊢
      rw [(related.head margin rfl).1]
      exact beq_iff_eq.mpr here.2
    · cases b with
      | true =>
        refine (advance_survives fun s here => ?_).bind fun _ => survives_pure rfl
        rw [here.1.2]
        exact ⟨rfl, rfl⟩
      | false => exact survives_nowhere fun s here => ne_of_beq_false here.2 here.1.2
  · intro s a t here run faults
    obtain ⟨omissible, rfl⟩ := semicolon_omits here.2 run
    have leads : s.Leads (omitting s) := ⟨faults, List.prefix_append _ _, List.suffix_rfl, rfl⟩
    refine ⟨leads, fun _ known => ⟨known.of_leads leads nofun, ⟨[], rfl, rfl⟩,
      fun picks margin => margin_omitting omissible picks margin, ?_⟩⟩
    intro c c' s' picks margin related
    obtain rfl | ⟨m, rfl, place⟩ := picks_omitting picks
    · obtain ⟨current, -⟩ := related.head_of_free margin.free known.ahead_ne_nil
      refine ⟨_, semicolon_of_omissible ?_ ?_, ?_⟩
      · rw [current]
        exact here.2
      · rw [current]
        exact omissible
      · exact ⟨related.tokens, related.allowsIn, related.faults, fun _ => related.previous nofun⟩
    · exact semicolon_written place margin related

end Semicolons

/-! ### Words, nodes and lists -/

section Nodes

variable {E : Edit} {place : ReaderState → Prop} {k : Stand} {n : Nat} {item item' : Reader Node}

/-- Whether a word is a modifier is told from the token after it, and if a semicolon may be written
between them, it makes the word none. -/
structure Modifiable (E : Edit) (k : Stand) (applies : Token → Bool) : Prop where
  stand : k = .before ∨ k = .inside ∧ ∀ t, t.kind = .semi → applies t = false
  same : ∀ t, applies (t.respan E.spans) = applies t

lemma Modifiable.mono {applies applies' : Token → Bool} (h : Modifiable E k applies)
    (fewer : ∀ t, applies t = false → applies' t = false)
    (same : ∀ t, applies' (t.respan E.spans) = applies' t) : Modifiable E k applies' :=
  ⟨h.stand.imp_right fun inside => ⟨inside.1, fun t ht => fewer t (inside.2 t ht)⟩, same⟩

lemma Modifiable.isInside {applies : Token → Bool} (h : Modifiable E k applies) :
    k.isInside = true := by
  obtain rfl | ⟨rfl, -⟩ := h.stand <;> rfl

/-- Two tokens that are left alone are a modifier or none, as before. -/
lemma Modifiable.edited {applies : Token → Bool} (h : Modifiable E k applies) {word : Bytes}
    {s s' : ReaderState} (current : s'.current = s.current.respan E.spans)
    (next : nextToken s' = (nextToken s).respan E.spans) :
    (isWord word s'.current && applies (nextToken s')) =
      (isWord word s.current && applies (nextToken s)) := by
  rw [next, current, h.same]
  rfl

/-- What is no modifier becomes none by a semicolon behind it. -/
lemma Modifiable.rejects {applies : Token → Bool} (h : Modifiable E k applies) {word : Bytes}
    {c : List E.Semicolon} {s s' : ReaderState} (known : E.Known k s) (margin : E.Margin k c s)
    (related : E.Related k c s s')
    (none : (isWord word s.current && applies (nextToken s)) = false) :
    (isWord word s'.current && applies (nextToken s')) = false := by
  have current := (related.head margin h.isInside).1
  obtain rfl | ⟨rfl, semi⟩ := h.stand
  · exact (h.edited current (related.next_of_before margin)).trans none
  by_cases kind : s.current.kind = .semi
  · have other : isWord word s'.current = false := by
      rw [current, isWord, show (s.current.respan E.spans).kind = .semi from kind]
      rfl
    rw [other, Bool.false_and]
  · obtain ⟨next, -⟩ | ⟨next, -⟩ := related.next known margin rfl kind
    · exact (h.edited current next).trans none
    · rw [semi _ next, Bool.and_false]

lemma acceptWord_survives {word : Bytes} {applies : Token → Bool} (h : Modifiable E k applies) :
    Survives E place k k n n id (acceptWord word applies) (acceptWord word applies) := by
  have into : k.into .before = true := by
    obtain rfl | ⟨rfl, -⟩ := h.stand <;> rfl
  refine .look (r := id) (m := fun b => if b then .before else k) (fun b => ?_) ?_ fun b => ?_
  · cases b
    · exact Stand.into_self
    · exact into
  · intro c s s' _ known margin related
    dsimp only [id]
    cases found : isWord word s.current && applies (nextToken s) with
    | true =>
      rw [found, if_pos rfl] at margin
      rw [h.edited (related.head margin rfl).1 (related.next_of_before margin), found]
    | false =>
      rw [found, if_neg Bool.false_ne_true] at margin
      exact h.rejects known margin related found
  · cases b with
    | false => exact survives_pure rfl
    | true =>
      refine (advance_survives fun s here => ?_).bind fun _ => survives_pure rfl
      rw [beq_iff_eq.mp (Bool.and_eq_true_iff.mp (Bool.and_eq_true_iff.mp here.2).1).1]
      obtain rfl | ⟨rfl, -⟩ := h.stand <;> exact ⟨rfl, rfl⟩

lemma extended_survives (hk : (k != .fresh) = true) (m : Node) :
    Survives E place k k n n (·.respan E.spans) (extended m) (extended (m.respan E.spans)) := by
  intro s a t here run faults
  cases run
  refine ⟨.refl faults, fun _ known => ⟨known, ⟨[], rfl, rfl⟩, ?_, ?_⟩⟩
  · intro c c' picks margin
    rw [picks_nil rfl picks]
    exact margin
  · intro c c' s' picks margin related
    rw [picks_nil rfl picks] at related
    have value : { m with span := m.span.merge s.previous.span }.respan E.spans =
        { m.respan E.spans with
          span := (m.respan E.spans).span.merge s'.previous.span } := by
      rw [Node.respan_withSpan, E.spans.merge, Node.span_respan,
        related.previous (bne_iff_ne.mp hk)]
    exact ⟨s', congrArg (Reply.ok · s') value.symm, related⟩

/-- The node with the parts of a changed one. -/
lemma extended_mk_survives (hk : (k != .fresh) = true) (kind : NodeKind) (value : Bytes)
    (span : Span) (flags : NodeFlags) (l : List Node) :
    Survives E place k k n n (·.respan E.spans) (extended ⟨kind, value, span, flags, l⟩)
      (extended ⟨kind, value, E.spans.span span, flags, l.map (·.respan E.spans)⟩) := by
  rw [← Node.respan_mk]
  exact extended_survives hk _

lemma node_survives (hk : (k != .fresh) = true) (kind : NodeKind) (start : Span)
    (children : List Node) :
    Survives E place k k n n (·.respan E.spans) (node kind start children)
      (node kind (E.spans.span start) (children.map (·.respan E.spans))) :=
  extended_mk_survives hk kind [] start {} children

lemma list_survives (h : Survives E anywhere .amid .amid n n (·.respan E.spans) item item')
    (close : TokenKind) (holes : Bool) :
    Survives E anywhere .amid .amid n n (List.map (·.respan E.spans)) (list close holes item)
      (list close holes item') := by
  refine .repeatedly (.current rfl fun t => .ite (fun _ => survives_pure rfl) fun _ => ?_)
  refine .ite (fun comma => ?_) fun _ => h.wherever.bind fun m => ?_
  · refine (advance_survives fun s here => ?_).bind fun t => survives_pure ?_
    · rw [here.2, comma.2]
      exact ⟨rfl, rfl⟩
    · simp only [Turn.respan, List.map_cons, List.map_nil, Node.respan_of]
      rfl
  · exact .accept rfl rfl rfl (survives_pure rfl)
      (survives_pure rfl)

lemma statementTurn_survives (hk : k = .inside ∨ k = .fresh)
    (h : Endures E .fresh .done n item item') (ends : List TokenKind) :
    Survives E anywhere k k n n (Turn.respan E.spans) (statementTurn item ends)
      (statementTurn item' ends) := by
  have read : Survives E anywhere k k n n (List.map (·.respan E.spans)) (recovering item)
      (recovering item') := by
    obtain rfl | rfl := hk <;> exact h.recovering.between rfl rfl
  have inside : k.isInside = true := by obtain rfl | rfl := hk <;> rfl
  exact .isAtAny inside (survives_pure rfl) (read.wherever.bind fun l => survives_pure rfl)

lemma statements_survives (hk : k = .inside ∨ k = .fresh) (h : Endures E .fresh .done n item item')
    (ends : List TokenKind) :
    Survives E anywhere k k n n (List.map (·.respan E.spans)) (statements item ends)
      (statements item' ends) := (statementTurn_survives hk h ends).repeatedly

end Nodes

end Reader

end ModuleLint
