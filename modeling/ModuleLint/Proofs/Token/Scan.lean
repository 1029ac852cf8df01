import Mathlib.Tactic.Common
import ModuleLint.Grammar.Script
import ModuleLint.Proofs.Grammar.Progress
import ModuleLint.Proofs.Grammar.Respan
import ModuleLint.Proofs.Token.Reading

/-!
The tokens of a text, one by one.

A list of tokens is the end of the text alone, or a token before the list of the text behind it. A
property of such lists is proved along this split.
-/

namespace ModuleLint

namespace TokenList

variable {file : Bytes} {previous : Option TokenKind} {place : Place} {text rest : Bytes}
  {b : UInt8}

/-- The place behind the gap at the head of a text. -/
def gapEnd (place : Place) (text : Bytes) : Place := place.after (text.take (Gap.scan text).size)

/-- The token that ends a text which is a gap alone. -/
def endToken (file : Bytes) (place : Place) (text : Bytes) : Token :=
  ⟨.eof, spanOf file (gapEnd place text) [], [], [], (Gap.scan text).newline⟩

/-- The bytes of the token that a text starts with. -/
def tokenBytes (previous : Option TokenKind) (b : UInt8) (rest : Bytes) : Bytes :=
  (b :: rest).take (Lexeme.scan previous b rest).size

/-- The text behind that token. -/
def tokenRest (previous : Option TokenKind) (b : UInt8) (rest : Bytes) : Bytes :=
  rest.drop ((Lexeme.scan previous b rest).size - 1)

/-- That token, where it stands behind the gap at the head of a text. -/
def nextToken (file : Bytes) (previous : Option TokenKind) (place : Place) (text : Bytes)
    (b : UInt8) (rest : Bytes) : Token :=
  let lexeme := Lexeme.scan previous b rest
  let bytes := tokenBytes previous b rest
  ⟨lexeme.kind, spanOf file (gapEnd place text) bytes, bytes, lexeme.value.getD bytes,
    (Gap.scan text).newline⟩

/-- The errors in it. -/
def nextFaults (file : Bytes) (previous : Option TokenKind) (place : Place) (text : Bytes)
    (b : UInt8) (rest : Bytes) : List LexicalFault :=
  (Lexeme.scan previous b rest).errors.map fun (error, read) =>
    ⟨error, spanOf file (gapEnd place text) ((b :: rest).take read)⟩

/-- The place behind it. -/
def tokenEnd (previous : Option TokenKind) (place : Place) (text : Bytes) (b : UInt8)
    (rest : Bytes) : Place := (gapEnd place text).after (tokenBytes previous b rest)

/-- The tokens that follow it. -/
def afterToken (file : Bytes) (previous : Option TokenKind) (place : Place) (text : Bytes)
    (b : UInt8) (rest : Bytes) : TokenList :=
  scanFrom file (Lexeme.scan previous b rest).kind (tokenEnd previous place text b rest)
    (tokenRest previous b rest)

lemma scanFrom_end (h : text.drop (Gap.scan text).size = []) :
    scanFrom file previous place text =
      ⟨[endToken file place text], gapFaults file place (Gap.scan text) text⟩ := by
  rw [scanFrom]
  dsimp only
  split
  · rfl
  case h_2 h' => cases h.symm.trans h'

lemma scanFrom_token (h : text.drop (Gap.scan text).size = b :: rest) :
    scanFrom file previous place text =
      (afterToken file previous place text b rest).prepend
        (nextToken file previous place text b rest)
        (gapFaults file place (Gap.scan text) text ++
          nextFaults file previous place text b rest) := by
  rw [scanFrom]
  dsimp only
  split
  case h_1 h' => cases h.symm.trans h'
  case h_2 h' =>
    cases h.symm.trans h'
    rfl

/-- What holds of a text that is a gap alone, and of a text if it does behind its first token, holds
of every text. -/
lemma scanFrom_induction {P : Option TokenKind → Place → Bytes → Prop}
    (ending : ∀ {previous place text}, text.drop (Gap.scan text).size = [] → P previous place text)
    (token : ∀ {previous place text b rest}, text.drop (Gap.scan text).size = b :: rest →
      P (Lexeme.scan previous b rest).kind (tokenEnd previous place text b rest)
        (tokenRest previous b rest) →
      P previous place text)
    (previous : Option TokenKind) (place : Place) (text : Bytes) : P previous place text := by
  induction hn : text.length using Nat.strongRecOn generalizing previous place text with
  | ind n ih =>
    cases h : text.drop (Gap.scan text).size with
    | nil => exact ending h
    | cons b rest =>
      have shorter := congrArg List.length h
      rw [List.length_drop, List.length_cons] at shorter
      refine token h (ih _ ?_ _ _ _ rfl)
      rw [tokenRest, List.length_drop]
      omega

/-- The end of the text is the last token and no other. -/
lemma scanFrom_endsOnce (file : Bytes) (previous : Option TokenKind) (place : Place)
    (text : Bytes) : EndsOnce (scanFrom file previous place text).tokens := by
  refine scanFrom_induction (P := fun previous place text =>
    EndsOnce (scanFrom file previous place text).tokens) ?_ ?_ previous place text
  · intro previous place text h
    rw [scanFrom_end h]
    rfl
  · intro previous place text b rest h behind
    rw [scanFrom_token h]
    change EndsOnce (afterToken file previous place text b rest).tokens at behind
    have proper : (nextToken file previous place text b rest).kind ≠ .eof :=
      (Lexeme.scan_sound previous b rest).kind
    change EndsOnce (_ :: (afterToken file previous place text b rest).tokens)
    cases more : (afterToken file previous place text b rest).tokens with
    | nil =>
      rw [more] at behind
      cases behind
    | cons t l =>
      rw [more] at behind
      exact ⟨proper, behind⟩

/-! ### Files -/

lemma scanFrom_intoFile (file : Bytes) (previous : Option TokenKind) (place : Place)
    (text : Bytes) : ∀ t ∈ (scanFrom file previous place text).tokens, t.span.file = file := by
  refine scanFrom_induction (P := fun previous place text =>
    ∀ t ∈ (scanFrom file previous place text).tokens, t.span.file = file) ?_ ?_ previous place text
  · intro previous place text h t ht
    rw [scanFrom_end h, List.mem_singleton] at ht
    rw [ht]
    rfl
  · intro previous place text b rest h behind t ht
    rw [scanFrom_token h] at ht
    rcases List.mem_cons.mp ht with rfl | ht
    · rfl
    · exact behind t ht

end TokenList

/-- The spans of the tokens of a source lie in its file. -/
lemma Source.tokens_intoFile (s : Source) :
    s.tokens.tokens.map (·.respan (.intoFile s.name)) = s.tokens.tokens := by
  refine (List.map_congr_left fun t ht => ?_).trans (List.map_id _)
  have file : t.span.file = s.name := TokenList.scanFrom_intoFile _ _ _ _ t ht
  rw [Token.respan, Respan.intoFile, ← file]
  rfl

/-- A script is read from the tokens of its source. -/
lemma Source.script_eq_ok {s : Source} {n : Node} (h : s.script = .ok n) :
    Grammar.script s.name s.tokens.tokens = .ok n := by
  unfold script at h
  dsimp only at h
  split at h
  · cases hs : Grammar.script s.name s.tokens.tokens with
    | ok m =>
      rw [hs] at h
      cases h
      rfl
    | error faults =>
      rw [hs] at h
      cases h
  · cases h

end ModuleLint
