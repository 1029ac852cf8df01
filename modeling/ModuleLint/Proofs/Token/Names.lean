import Mathlib.Data.List.TakeWhile
import ModuleLint.Proofs.Token.Scan

/-!
The texts of identifiers and keywords.

Only a name is read as an identifier or a keyword, and it reaches as far as bytes continue a name.
So there is no dot in it, and no identifier is spelled like a keyword.
-/

namespace ModuleLint

namespace Lexeme

variable {previous : Option TokenKind} {b : UInt8} {rest text : Bytes}

/-- An identifier or a keyword is read as a name. -/
lemma scan_of_isName (h : (scan previous b rest).kind.isName) :
    scan previous b rest = name (b :: rest) := by
  have signs : ∀ k ∈ TokenKind.punctuators, ¬ k.isName := by decide
  have others : ∀ k ∈ ([.number, .regex, .error] : List TokenKind), ¬ k.isName := by decide
  rcases scan_kinds previous b rest with ⟨-, reads⟩ | ⟨q, kind, -⟩ | ⟨kind, -⟩ | kind
  · exact reads
  · rw [kind] at h
    cases q <;> cases h
  · exact absurd h (signs _ kind)
  · exact absurd h (others _ kind)

lemma take_nameRun (text : Bytes) : text.take (nameRun text) = text.takeWhile continuesName :=
  (List.prefix_iff_eq_take.mp (List.takeWhile_prefix continuesName)).symm

/-- A name that is an identifier is no keyword. -/
lemma keyword?_of_name (h : (name text).kind = .identifier) :
    TokenKind.keyword? (text.take (nameRun text)) = none := by
  have keywords : ∀ k ∈ TokenKind.keywords, k ≠ .identifier := by decide
  cases found : TokenKind.keyword? (text.take (nameRun text)) with
  | none => rfl
  | some k =>
    have kind : (name text).kind = k := by
      rw [name, found]
      rfl
    exact absurd (kind.symm.trans h) (keywords k (TokenKind.mem_keywords found))

end Lexeme

open Lexeme TokenList

/-- The value consists of bytes that continue a name, and is no keyword if the token is an
identifier. -/
structure Token.SpellsName (t : Token) : Prop where
  continues : ∀ b ∈ t.value, continuesName b
  identifier : t.kind = .identifier → TokenKind.keyword? t.value = none

namespace Token

/-- If the token is an identifier or a keyword, its value spells a name. -/
def IsProper (t : Token) : Prop := t.kind.isName → t.SpellsName

lemma SpellsName.noDot {t : Token} (h : t.SpellsName) : Byte.dot ∉ t.value := by
  intro dot
  have continues := h.continues _ dot
  revert continues
  decide

/-- No identifier is spelled like a keyword. -/
lemma SpellsName.ne_keyword {t : Token} {word : Bytes} (h : t.SpellsName)
    (kind : t.kind = .identifier) (keyword : (TokenKind.keyword? word).isSome) :
    t.value ≠ word := by
  rintro rfl
  rw [h.identifier kind] at keyword
  cases keyword

end Token

namespace TokenList

lemma nextToken_isProper (file : Bytes) (previous : Option TokenKind) (place : Place)
    (text : Bytes) (b : UInt8) (rest : Bytes) :
    (nextToken file previous place text b rest).IsProper := by
  intro h
  have lexeme : Lexeme.scan previous b rest = name (b :: rest) := scan_of_isName h
  have value : (nextToken file previous place text b rest).value =
      (b :: rest).take (nameRun (b :: rest)) := by
    rw [nextToken, tokenBytes, lexeme]
    rfl
  refine ⟨fun c hc => ?_, fun identifier => ?_⟩
  · rw [value, take_nameRun] at hc
    exact List.mem_takeWhile_imp hc
  · rw [value]
    refine keyword?_of_name ?_
    rw [← lexeme]
    exact identifier

lemma scanFrom_isProper (file : Bytes) (previous : Option TokenKind) (place : Place)
    (text : Bytes) : ∀ t ∈ (scanFrom file previous place text).tokens, t.IsProper := by
  refine scanFrom_induction (P := fun previous place text =>
    ∀ t ∈ (scanFrom file previous place text).tokens, t.IsProper) ?_ ?_ previous place text
  · intro previous place text h t ht isName
    rw [scanFrom_end h, List.mem_singleton] at ht
    rw [ht] at isName
    cases isName
  · intro previous place text b rest h behind t ht
    rw [scanFrom_token h] at ht
    rcases List.mem_cons.mp ht with rfl | ht
    · exact nextToken_isProper file previous place text b rest
    · exact behind t ht

end TokenList

/-- Every identifier and every keyword of a source spells a name. -/
lemma Source.tokens_isProper (s : Source) : ∀ t ∈ s.tokens.tokens, t.IsProper :=
  scanFrom_isProper _ _ _ _

end ModuleLint
