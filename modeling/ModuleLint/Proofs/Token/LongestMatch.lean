import Mathlib.Data.List.TakeWhile
import ModuleLint.Proofs.Token.Names
import ModuleLint.Proofs.Token.Standing

/-!
Names and punctuators are as long as they can be.

A punctuator is the longest at the head of the text, and a name takes every byte that continues it.
What is read is spelled as its kind is displayed.
-/

namespace ModuleLint

namespace Lexeme

variable {previous : Option TokenKind} {b : UInt8} {rest text : Bytes} {k : TokenKind}

/-! ### Punctuators -/

/-- A punctuator is the longest whose text is at the head of the text. -/
lemma punctuator_longest (h : (punctuator b rest).kind ≠ .error) :
    let k := (punctuator b rest).kind
    punctuator b rest = plain k k.text.length ∧ LongestHead k (b :: rest) := by
  obtain ⟨k, longest, reads⟩ | failed := punctuator_cases b rest
  · rw [reads]
    exact ⟨rfl, longest⟩
  · rw [failed] at h
    exact absurd rfl h

lemma not_punctuator_of_isName (h : k.isName) : k ∉ TokenKind.punctuators := by
  have signs : ∀ k ∈ TokenKind.punctuators, ¬ k.isName := by decide
  exact fun sign => signs k sign h

/-- Only a punctuator is read as one. -/
lemma scan_of_punctuator (h : (scan previous b rest).kind ∈ TokenKind.punctuators) :
    scan previous b rest = punctuator b rest := by
  have others : ∀ k ∈ ([.number, .regex, .error] : List TokenKind), k ∉ TokenKind.punctuators := by
    decide
  rcases scan_kinds previous b rest with ⟨kind, -⟩ | ⟨q, kind, -⟩ | ⟨-, reads⟩ | kind
  · exact absurd h (not_punctuator_of_isName kind)
  · rw [kind] at h
    cases q <;> exact absurd h (by decide)
  · exact reads
  · exact absurd h (others _ kind)

/-! ### Names -/

/-- What is behind a name does not continue it. -/
lemma name_maximal (h : text.take (nameRun text) ++ rest = text) :
    (∀ b ∈ text.take (nameRun text), continuesName b) ∧ ∀ b ∈ rest.head?, ¬ continuesName b := by
  rw [take_nameRun] at h ⊢
  refine ⟨fun b hb => List.mem_takeWhile_imp hb, fun b hb => ?_⟩
  have behind : rest = text.dropWhile continuesName := by
    refine List.append_cancel_left (h.trans ?_)
    exact List.takeWhile_append_dropWhile.symm
  have stops := List.head?_dropWhile_not continuesName text
  rw [← behind, hb] at stops
  simpa using stops

/-- A keyword is spelled as it is displayed. -/
lemma text_of_keyword (h : (name text).kind.isKeyword) :
    (name text).kind.text = text.take (nameRun text) := by
  unfold name plain at h ⊢
  dsimp only at h ⊢
  cases found : TokenKind.keyword? (text.take (nameRun text)) with
  | none =>
    rw [found] at h
    cases h
  | some k => exact (TokenKind.keyword?_eq_some_iff.mp found).2

/-- No keyword is read as an identifier. -/
lemma ne_text_of_identifier (h : (name text).kind = .identifier) (hk : k ∈ TokenKind.keywords) :
    text.take (nameRun text) ≠ k.text :=
  (TokenKind.text_ne_of_keyword? (keyword?_of_name h) hk).symm

/-! ### Longest matches -/

/-- Bytes that were matched at the head of a text are as many as they can be, and are spelled as
what they were taken for. -/
structure Longest (kind : TokenKind) (bytes rest : Bytes) : Prop where
  spelled : kind.isKeyword ∨ kind ∈ TokenKind.punctuators → bytes = kind.text
  /-- No longer punctuator is at the head of the text. -/
  punctuator : kind ∈ TokenKind.punctuators →
    ∀ k ∈ TokenKind.punctuators, k.text <+: bytes ++ rest → k.text.length ≤ bytes.length
  /-- The bytes continue a name, and the byte behind them does not. -/
  name : kind.isName → (∀ b ∈ bytes, continuesName b) ∧ ∀ b ∈ rest.head?, ¬ continuesName b
  identifier : kind = .identifier → ∀ k ∈ TokenKind.keywords, bytes ≠ k.text

lemma isName_of_keyword (h : k.isKeyword) : k.isName := by
  rw [TokenKind.isName, h, Bool.or_true]

lemma longest_of_other {bytes : Bytes} (noName : ¬ k.isName)
    (noSign : k ∉ TokenKind.punctuators) : Longest k bytes rest where
  spelled h := h.elim (fun keyword => absurd (isName_of_keyword keyword) noName) (absurd · noSign)
  punctuator h := absurd h noSign
  name h := absurd h noName
  identifier h := absurd (h ▸ rfl) noName

lemma longest_name (h : text.take (nameRun text) ++ rest = text) :
    Longest (Lexeme.name text).kind (text.take (nameRun text)) rest where
  spelled
    | .inl keyword => (text_of_keyword keyword).symm
    | .inr sign => absurd sign (not_punctuator_of_isName (kind_name text))
  punctuator sign := absurd sign (not_punctuator_of_isName (kind_name text))
  name _ := name_maximal h
  identifier h _ hk := ne_text_of_identifier h hk

lemma longest_punctuator {bytes behind : Bytes}
    (h : (Lexeme.punctuator b rest).kind ∈ TokenKind.punctuators)
    (matched : bytes = (b :: rest).take (Lexeme.punctuator b rest).size)
    (whole : bytes ++ behind = b :: rest) :
    Longest (Lexeme.punctuator b rest).kind bytes behind := by
  have noError : (Lexeme.punctuator b rest).kind ≠ .error := fun error => by
    rw [error] at h
    exact absurd h (by decide)
  have noName := mt not_punctuator_of_isName (not_not_intro h)
  obtain ⟨same, longest⟩ := punctuator_longest noError
  have spelled : bytes = (Lexeme.punctuator b rest).kind.text := by
    rw [matched, same]
    exact (List.prefix_iff_eq_take.mp longest.starts).symm
  refine ⟨fun _ => spelled, fun _ k hk longer => ?_, fun h => absurd h noName, fun h => ?_⟩
  · rw [spelled]
    exact longest.longest k hk (whole ▸ longer)
  · exact absurd (h ▸ rfl) noName

end Lexeme

open Lexeme TokenList

/-- What is read at the head of a text is as long as it can be. -/
lemma TokenList.longest_tokenBytes (previous : Option TokenKind) (b : UInt8) (rest : Bytes) :
    Longest (Lexeme.scan previous b rest).kind (tokenBytes previous b rest)
      (tokenRest previous b rest) := by
  have whole := tokenBytes_append previous b rest
  by_cases isName : (Lexeme.scan previous b rest).kind.isName
  · have reads := scan_of_isName isName
    have bytes : tokenBytes previous b rest = (b :: rest).take (nameRun (b :: rest)) := by
      rw [tokenBytes, reads]
      rfl
    rw [bytes] at whole ⊢
    rw [reads]
    exact longest_name whole
  by_cases sign : (Lexeme.scan previous b rest).kind ∈ TokenKind.punctuators
  · have reads := scan_of_punctuator sign
    have bytes : tokenBytes previous b rest =
        (b :: rest).take (Lexeme.punctuator b rest).size := by
      rw [tokenBytes, reads]
    rw [reads] at sign ⊢
    exact longest_punctuator sign bytes whole
  · exact longest_of_other isName sign

/-- **Names and punctuators are matched as far as possible.** A keyword or punctuator in a source is
spelled as its kind is displayed, and no longer punctuator is at the head of the text where it
stands. An identifier or keyword goes on to the last byte that continues it, and no identifier is
spelled like a keyword. -/
theorem Source.longest_match {s : Source} {before after : List Token} {t : Token}
    (h : s.tokens.tokens = before ++ t :: after) :
    ∃ front gap rest, s.HoldsAt before t front gap rest ∧ Longest t.kind t.lexeme rest := by
  obtain ⟨front, text, cut, ⟨ends, rfl⟩ | ⟨b, rest, starts, rfl⟩⟩ := tokens_at h
  · exact ⟨_, _, _, cut.holdsAt_end ends, longest_of_other (k := .eof) (by decide) (by decide)⟩
  · exact ⟨_, _, _, cut.holdsAt_token starts, longest_tokenBytes _ b rest⟩

/-- In `x>>>=int` the assignment is one punctuator, and `int` goes on behind the keyword `in`. -/
theorem Source.longest_match_shift :
    let s : Source := ⟨ascii "a.js", ascii "x>>>=int"⟩
    ∃ x t i e, s.tokens.tokens = [x, t, i, e] ∧
      (∃ front gap rest, s.HoldsAt [x] t front gap rest ∧ Longest .ushrAssign t.lexeme rest ∧
        t.lexeme = ascii ">>>=") ∧
      ∃ front gap rest, s.HoldsAt [x, t] i front gap rest ∧ Longest .identifier i.lexeme rest := by
  intro s
  have kinds : s.tokens.tokens.map (·.kind) = [.identifier, .ushrAssign, .identifier, .eof] := by
    decide +kernel
  obtain ⟨x, rest, h, -, kinds⟩ := List.map_eq_cons_iff.mp kinds
  obtain ⟨t, rest, rfl, ht, kinds⟩ := List.map_eq_cons_iff.mp kinds
  obtain ⟨i, rest, rfl, hi, kinds⟩ := List.map_eq_cons_iff.mp kinds
  obtain ⟨e, rest, rfl, -, kinds⟩ := List.map_eq_cons_iff.mp kinds
  obtain rfl := List.map_eq_nil_iff.mp kinds
  obtain ⟨front, gap, behind, stands, longest⟩ := @Source.longest_match s [x] _ _ h
  obtain ⟨front', gap', behind', stands', longest'⟩ := @Source.longest_match s [x, t] _ _ h
  rw [ht] at longest
  rw [hi] at longest'
  exact ⟨x, t, i, e, h, ⟨front, gap, behind, stands, longest, longest.spelled (.inr (by decide))⟩,
    front', gap', behind', stands', longest'⟩

end ModuleLint
