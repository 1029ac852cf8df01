import Mathlib.Tactic.Common
import ModuleLint.Proofs.Grammar.Survival

/-!
What stands ahead of a reader after an edit.

A token that is left alone is ahead of both readers. Where a semicolon may be written, one may be
ahead in its place; and what is told from more tokens than the next comes out the same.
-/

namespace ModuleLint

open Grammar

/-- Kinds of tokens that are taken in the middle of a statement and are no brackets. -/
def TokenKind.isOrdinary (kind : TokenKind) : Bool :=
  !([TokenKind.eof, .lparen, .rparen, .lbracket, .rbracket, .lbrace, .rbrace, .semi, .colon,
    .arrow, .kwElse].contains kind)

lemma TokenKind.depthAfter_of_isOrdinary {kind : TokenKind} {n : Nat}
    (h : kind.isOrdinary = true) : kind.depthAfter n = some n := by
  cases kind <;> first | rfl | cases h

namespace Stand

/-- Stands before a token that is left alone. -/
def isInside : Stand → Bool
  | .loose | .done => false
  | _ => true

/-- The stand before a token that is left alone as it is told apart there. -/
def firm : Stand → Stand
  | .loose => .amid
  | .done => .inside
  | k => k

variable {k : Stand}

lemma isInside_of_ne (hd : k ≠ .done) (hl : k ≠ .loose) : k.isInside = true := by
  cases k <;> first | rfl | exact absurd rfl hd | exact absurd rfl hl

lemma into_firm : k.into k.firm = true := by cases k <;> rfl

lemma isInside_firm : k.firm.isInside = true := by cases k <;> rfl

lemma firm_of_isInside (h : k.isInside = true) : k.firm = k := by
  cases k <;> first | rfl | cases h

/-- Ordinary tokens may be taken wherever a name may. -/
lemma takes_of_isOrdinary {k' : Stand} {kind : TokenKind} (h : kind.isOrdinary = true)
    (takes : k.takes .identifier k' = true) : k.takes kind k' = true := by
  have others : kind ≠ .semi ∧ kind ≠ .colon ∧ kind ≠ .arrow ∧ kind ≠ .kwElse := by
    refine ⟨?_, ?_, ?_, ?_⟩ <;> rintro rfl <;> cases h
  cases k <;> cases k' <;> simp_all [Stand.takes, Stand.admits, free, left]

lemma ne_semi_of_takes {kind : TokenKind} (h : k.takes kind .loose = true) : kind ≠ .semi := by
  rintro rfl
  cases k <;> cases h

/-- Whether a token of a kind is told apart from what an edit puts before it. -/
def tells (k : Stand) (kind : TokenKind) : Bool := k != .done && (k != .loose || kind != .semi)

lemma tells_iff {kind : TokenKind} :
    k.tells kind = true ↔ k ≠ .done ∧ (k = .loose → kind ≠ .semi) := by
  cases k <;> simp [tells]

lemma tells_of_isInside {kind : TokenKind} (h : k.isInside = true) : k.tells kind = true := by
  cases k <;> first | rfl | cases h

lemma one_le_free (h : k.isInside = true) : 1 ≤ k.free ∧ 1 ≤ k.left := by
  cases k <;> simp_all [isInside, free, left]

end Stand

namespace Edit

open Reader

variable {E : Edit} {k k' : Stand} {c c' : List E.Semicolon} {s s' t u : ReaderState}

lemma Related.head_of_free (h : E.Related k c s s') (free : ∀ m ∈ c, m.place < s.ahead.length)
    (left : E.ending.isSome → s.ahead ≠ []) :
    s'.current = s.current.respan E.spans ∧ s'.ahead = E.apply c s.ahead := by
  refine List.cons.inj (h.tokens.trans (apply_free (fun none => ?_) fun m hm => ?_))
  · by_contra some
    exact left (Option.isSome_iff_ne_none.mpr some) none
  · exact Nat.ne_of_lt (free m hm)

lemma Margin.ahead_ne_nil (h : E.Margin k c s) (hk : k.isInside = true) (ending : E.ending.isSome) :
    s.ahead ≠ [] := by
  have left := h.left ending
  have one := (Stand.one_le_free hk).2
  exact List.length_pos_iff.mp (by omega)

/-- Inside, the next token is left alone. -/
lemma Related.head (h : E.Related k c s s') (margin : E.Margin k' c s) (hk : k'.isInside = true) :
    s'.current = s.current.respan E.spans ∧ s'.ahead = E.apply c s.ahead := by
  refine h.head_of_free (fun m hm => ?_) (margin.ahead_ne_nil hk)
  have free := margin.free m hm
  have one := (Stand.one_le_free hk).1
  omega

/-- What is no semicolon is not the last token before the end that is replaced. -/
lemma Known.ahead_ne_nil (h : E.Known .loose s) (ending : E.ending.isSome) : s.ahead ≠ [] := by
  intro none
  obtain ⟨u, e, kind, suffix⟩ := (h.steady ending).semicolon
  rw [ReaderState.tokens, none] at suffix
  have same := suffix.eq_of_length rfl
  cases same
  exact h.previous rfl kind

/-- After an expression, the next token is left alone or a semicolon stands before it. -/
lemma Related.looseHead (h : E.Related .loose c s s') (known : E.Known .loose s) :
    s'.current = s.current.respan E.spans ∨
      (s'.current.kind = .semi ∧ ∀ span, E.spans.span span = s'.current.span) := by
  have tokens := h.tokens
  have replaced : s.ahead = [] → E.ending = none := fun none =>
    Option.not_isSome_iff_eq_none.mp fun some => known.ahead_ne_nil some none
  rw [ReaderState.tokens, ReaderState.tokens] at tokens
  obtain ⟨-, apart⟩ | ⟨-, -, -, u, more, before, written⟩ := apply_cases c s.current replaced
  · rw [apart] at tokens
    exact .inl (List.cons.inj tokens).1
  · rw [before] at tokens
    rw [(List.cons.inj tokens).1]
    exact .inr written

/-- After a statement, the next token is left alone, or what replaces it goes on no statement. -/
lemma Related.doneHead (h : E.Related .done c s s') (margin : E.Margin .done c s) :
    s'.current = s.current.respan E.spans ∨ s'.current.kind ≠ .kwElse := by
  by_cases last : E.ending.isSome ∧ s.ahead = []
  · obtain ⟨l, ending⟩ := Option.isSome_iff_exists.mp last.1
    have tokens : s'.tokens = l := by
      rw [h.tokens, nil_of_ending last.1 c, ReaderState.tokens, last.2, apply, ending]
      rfl
    exact .inr (E.ending_noElse l ending _ (tokens ▸ rfl))
  · exact .inl (h.head_of_free margin.free fun ending none => last ⟨ending, none⟩).1

lemma Margin.fits (h : E.Margin k c s) : Fits c s.tokens := fun m hm _ => h.omission m hm

/-- Whether an arrow function starts at some tokens that are left does not change. -/
lemma Steady.startsArrow {x y : Token} {rest : List Token} (h : E.Steady s)
    (suffix : x :: y :: rest <:+ s.tokens) :
    startsArrow (E.apply [] (x :: y :: rest)) = startsArrow (x :: y :: rest) := by
  have split := List.dropLast_concat_getLast (List.cons_ne_nil x (y :: rest))
  rw [← split] at suffix ⊢
  exact h.arrow _ _ (by simp) suffix

/-- Whether an arrow function starts here does not change. -/
lemma Related.startsArrow (h : E.Related k c s s') (known : E.Known k s) (margin : E.Margin k c s)
    (hk : k.isInside = true) : startsArrow s'.tokens = startsArrow s.tokens := by
  rw [h.tokens]
  cases ending : E.ending with
  | none =>
    refine startsArrow_apply margin.fits ending fun m hm => Nat.ne_of_lt ?_
    have free := margin.free m hm
    have one := (Stand.one_le_free hk).1
    omega
  | some l =>
    have some : E.ending.isSome := Option.isSome_of_eq_some ending
    rw [nil_of_ending some c, ReaderState.tokens]
    obtain ⟨x, rest, ahead⟩ := List.exists_cons_of_ne_nil (margin.ahead_ne_nil hk some)
    rw [ahead]
    exact (known.steady some).startsArrow ⟨[], congrArg (s.current :: ·) ahead.symm⟩

/-- What is no semicolon has more than one token behind it where the end is replaced. -/
lemma Steady.next (h : E.Steady s) (hs : s.current.kind ≠ .semi) (ne : s.ahead ≠ []) :
    ∃ x y rest, s.ahead = x :: y :: rest := by
  obtain ⟨x, rest, ahead⟩ := List.exists_cons_of_ne_nil ne
  cases rest with
  | nil =>
    obtain ⟨u, e, kind, suffix⟩ := h.semicolon
    rw [ReaderState.tokens, ahead] at suffix
    have last : [s.current, x] <:+ [s.previous, s.current, x] := List.suffix_cons _ _
    have same := (List.suffix_of_suffix_length_le suffix last (Nat.le_refl _)).eq_of_length rfl
    cases same
    exact absurd kind hs
  | cons y rest => exact ⟨x, y, rest, ahead⟩

/-- The token after the next is left alone or a semicolon is written before it. -/
lemma Related.next (h : E.Related k c s s') (known : E.Known k s) (margin : E.Margin k c s)
    (hk : k.isInside = true) (hs : s.current.kind ≠ .semi) :
    (nextToken s' = (nextToken s).respan E.spans ∧
      Grammar.startsArrow s'.ahead = Grammar.startsArrow s.ahead) ∨
    ((nextToken s').kind = .semi ∧ Grammar.startsArrow s'.ahead = false ∧
      (nextToken s).AllowsOmission) := by
  obtain ⟨current, ahead⟩ := h.head margin hk
  unfold nextToken
  rw [ahead]
  by_cases none : s.ahead = []
  · rw [none]
    exact .inl ⟨current, rfl⟩
  cases ending : E.ending with
  | some l =>
    have some : E.ending.isSome := Option.isSome_of_eq_some ending
    obtain ⟨x, y, rest, behind⟩ := (known.steady some).next hs none
    rw [nil_of_ending some c, behind]
    refine .inl ⟨rfl, (known.steady some).startsArrow ?_⟩
    rw [← behind]
    exact List.suffix_cons _ _
  | none =>
    obtain ⟨x, rest, behind⟩ := List.exists_cons_of_ne_nil none
    have fits : Fits c (x :: rest) := behind ▸ margin.fits.tail
    rw [behind]
    obtain ⟨free, apart⟩ | ⟨m, hm, here, u, more, before, semi, -⟩ :=
      apply_cases c x fun _ => ending
    · refine .inl ⟨?_, startsArrow_apply fits ending free⟩
      rw [apart]
      rfl
    · have omission := fits m hm (by rw [here]; exact Nat.lt_succ_self _)
      rw [here] at omission
      rw [before]
      refine .inr ⟨semi, ?_, omission.head⟩
      rw [Grammar.startsArrow, semi]
      rfl

/-- Where two tokens are left alone, so is the token after the next. -/
lemma Related.next_of_before (h : E.Related k c s s') (margin : E.Margin .before c s) :
    nextToken s' = (nextToken s).respan E.spans := by
  obtain ⟨current, ahead⟩ := h.head margin rfl
  unfold nextToken
  rw [ahead]
  cases hl : s.ahead with
  | nil => exact current
  | cons x rest =>
    rw [apply_free (fun none => ?_) fun m hm => ?_]
    · rfl
    · by_contra some
      have left := margin.left (Option.isSome_iff_ne_none.mpr some)
      rw [hl, none] at left
      exact absurd left (Nat.not_succ_le_self 1)
    · have free := margin.free m hm
      rw [hl] at free
      change m.place + 2 ≤ rest.length + 1 at free
      omega

section Steps

variable {m : Stand} {kind : TokenKind} {x : Token} {rest : List Token}

lemma step_of_ahead (hs : s.current.kind ≠ .eof) (ahead : s.ahead = x :: rest) :
    step s = { s with previous := s.current, current := x, ahead := rest } := by
  simp [step, hs, ahead]

/-- A token that is taken is not the last one before the end. -/
lemma exists_ahead (ends : HasEnd (step s).tokens) (hs : s.current.kind ≠ .eof) :
    ∃ x rest, s.ahead = x :: rest := by
  refine List.exists_cons_of_ne_nil fun none => ?_
  have stays : step s = s := by simp [step, hs, none]
  obtain ⟨t, ht, eof⟩ := ends
  rw [stays, ReaderState.tokens, none] at ht
  rw [List.mem_singleton.mp ht] at eof
  exact hs eof

lemma step_leads (h : s.faults = []) : s.Leads (step s) := by
  unfold step
  split
  · exact .refl h
  · split
    case h_1 => exact .refl h
    case h_2 x rest ahead =>
      refine ⟨h, List.prefix_rfl, ?_, rfl⟩
      rw [ReaderState.tokens, ReaderState.tokens, ahead]
      exact List.suffix_cons _ _

/-- What is left alone behind a token that is taken is left alone before it. -/
lemma Margin.take (h : E.Margin m c (step s)) (takes : k.takes s.current.kind m = true)
    (hs : s.current.kind ≠ .eof) (ahead : s.ahead = x :: rest) : E.Margin k c s := by
  simp only [Stand.takes, Bool.and_eq_true, decide_eq_true_eq] at takes
  obtain ⟨⟨⟨admits, free⟩, left⟩, -⟩ := takes
  obtain ⟨omission, behind, behindLeft, -⟩ := h
  rw [step_of_ahead hs ahead] at omission behind behindLeft
  refine ⟨fun n hn => (omission n hn).suffix ?_, fun n hn => ?_, fun ending => ?_, admits⟩
  · rw [ReaderState.tokens, ReaderState.tokens, ahead]
    exact List.suffix_cons _ _
  · have place : n.place + m.free ≤ rest.length := behind n hn
    rw [ahead, List.length_cons]
    omega
  · have remaining : m.left ≤ rest.length := behindLeft ending
    rw [ahead, List.length_cons]
    omega

/-- No semicolon is written before a token that is taken. -/
lemma Margin.place_lt (h : E.Margin m c (step s)) (hs : s.current.kind ≠ .eof)
    (ahead : s.ahead = x :: rest) : ∀ n ∈ c, n.place < s.ahead.length := by
  intro n hn
  have place := h.free n hn
  rw [step_of_ahead hs ahead] at place
  rw [ahead, List.length_cons]
  exact Nat.lt_succ_of_le (Nat.le_trans (Nat.le_add_right _ _) place)

/-- A token that is left alone is taken from the edited tokens, too. -/
lemma Related.take (h : E.Related k c s s') (hs : s.current.kind ≠ .eof)
    (ahead : s.ahead = x :: rest) (free : ∀ n ∈ c, n.place < s.ahead.length) :
    advance s' = .ok (s.current.respan E.spans) (step s') ∧ E.Related m c (step s) (step s') := by
  have ne : s.ahead ≠ [] := by
    rw [ahead]
    exact List.cons_ne_nil x rest
  obtain ⟨current, behind⟩ := h.head_of_free free fun _ => ne
  obtain ⟨y, rest', ahead'⟩ := List.exists_cons_of_ne_nil (behind ▸ apply_ne_nil ne)
  have hs' : s'.current.kind ≠ .eof := by
    rw [current]
    exact hs
  rw [step_of_ahead hs ahead, step_of_ahead hs' ahead']
  refine ⟨?_, ?_, h.allowsIn, h.faults, fun _ => congrArg Token.span current⟩
  · rw [← current, ← step_of_ahead hs' ahead']
    rfl
  · change y :: rest' = E.apply c (x :: rest)
    rw [← ahead', behind, ahead]

end Steps

end Edit

end ModuleLint
