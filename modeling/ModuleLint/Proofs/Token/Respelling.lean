import Mathlib.Tactic.Common
import ModuleLint.Proofs.Token.Locality
import ModuleLint.Proofs.Token.Scan
import ModuleLint.Proofs.Token.Trivia

/-!
Reading what tokens are spelled as.

The lexemes of the tokens of a text, with a space behind each, spell the same tokens: no token
reaches over the space, and none that stood alone does so less.
-/

namespace ModuleLint

namespace Gap

variable {b : UInt8} {rest text : Bytes}

/-- Nothing behind a gap belongs to it. -/
lemma scan_behind (w : Within) (text : Bytes) :
    scan (text.drop (scanFrom w text).size) = empty := by
  fun_induction scanFrom w text with
  | case1 _ ih | case2 _ ih | case3 _ _ _ ih | case4 _ _ _ _ _ _ ih => exact ih
  | case5 b rest noLine noBlock noFeed noBlank =>
    change scanFrom .blanks (b :: rest) = empty
    rw [scanFrom, if_neg noFeed, if_neg noBlank]
    · exact noLine
    · exact noBlock
  | case6 | case9 | case13 => rfl
  | case7 _ ih | case8 _ _ _ ih | case10 _ _ ih => exact ih
  | case11 _ _ _ _ ih | case12 _ _ _ _ _ _ ih => exact ih

lemma scan_space (text : Bytes) : scan (Byte.space :: text) = (scan text).after 1 := by
  unfold scan
  rw [scanFrom, if_neg (by decide), if_pos (by decide)]
  all_goals
    intro rest slash
    cases slash

/-- The bytes that start a comment after a slash. -/
def opensComment (b : UInt8) : Bool := b == Byte.slash || b == Byte.star

lemma after_ne_empty (n : Nat) (g : Gap) : g.after (n + 1) ≠ empty :=
  fun h => Nat.succ_ne_zero (g.size + n) (congrArg Gap.size h)

lemma scan_eq_empty_iff : scan (b :: rest) = empty ↔
    b ≠ Byte.lineFeed ∧ ¬ isBlank b ∧ (b = Byte.slash → ¬ Lexeme.headIs opensComment rest) := by
  constructor
  · intro none
    refine ⟨?_, fun blank => ?_, ?_⟩
    · rintro rfl
      cases congrArg Gap.size none
    · have noFeed : b ≠ Byte.lineFeed := by
        rintro rfl
        cases congrArg Gap.size none
      have noSlash : b ≠ Byte.slash := by
        rintro rfl
        cases blank
      unfold scan at none
      rw [scanFrom, if_neg noFeed, if_pos blank] at none
      · exact after_ne_empty 0 _ none
      · exact fun _ slash => absurd slash noSlash
      · exact fun _ slash => absurd slash noSlash
    · rintro rfl comment
      cases rest with
      | nil => cases comment
      | cons c rest =>
        rcases Bool.or_eq_true_iff.mp comment with line | block
        · rw [beq_iff_eq.mp line] at none
          exact after_ne_empty 1 _ none
        · rw [beq_iff_eq.mp block] at none
          exact after_ne_empty 1 _ none
  · rintro ⟨noFeed, noBlank, noComment⟩
    unfold scan
    rw [scanFrom, if_neg noFeed, if_neg noBlank]
    · rintro rest slash rfl
      exact noComment slash rfl
    · rintro rest slash rfl
      exact noComment slash rfl

/-- Where a token starts, no gap starts before a space either. -/
lemma scan_spaced {w r r' : Bytes} (h : scan (b :: (w ++ r)) = empty) :
    scan (b :: Lexeme.spaced w r') = empty := by
  obtain ⟨noFeed, noBlank, noComment⟩ := scan_eq_empty_iff.mp h
  refine scan_eq_empty_iff.mpr ⟨noFeed, noBlank, fun slash => ?_⟩
  cases w with
  | nil => exact Bool.false_ne_true
  | cons c w => exact noComment slash

end Gap

/-! ### Spellings -/

namespace Token

/-- What a token says, wherever it stands. -/
def content (t : Token) : TokenKind × Bytes × Bytes := (t.kind, t.lexeme, t.value)

/-- The lexemes of tokens, with a space between neighbours. -/
def spelling (tokens : List Token) : Bytes := Bytes.join [Byte.space] (tokens.map (·.lexeme))

lemma spelling_cons (t : Token) {tokens : List Token} (h : tokens ≠ []) :
    spelling (t :: tokens) = Lexeme.spaced t.lexeme (spelling tokens) := by
  have lexemes : tokens.map (·.lexeme) ≠ [] := fun none => h (List.map_eq_nil_iff.mp none)
  rw [spelling, Bytes.join, List.map_cons, List.intercalate_cons_of_ne_nil lexemes,
    List.append_assoc]
  rfl

end Token

namespace TokenList

open Lexeme

variable {file : Bytes} {previous : Option TokenKind} {place : Place} {text rest lead : Bytes}
  {b : UInt8}

lemma scanFrom_ne_nil (file : Bytes) (previous : Option TokenKind) (place : Place) (text : Bytes) :
    (scanFrom file previous place text).tokens ≠ [] := by
  cases h : text.drop (Gap.scan text).size with
  | nil =>
    rw [scanFrom_end h]
    exact List.cons_ne_nil _ _
  | cons b rest =>
    rw [scanFrom_token h]
    exact List.cons_ne_nil _ _

/-- The bytes of a token, taken apart. -/
lemma tokenBytes_cons (previous : Option TokenKind) (b : UInt8) (rest : Bytes) :
    ∃ w, tokenBytes previous b rest = b :: w ∧ rest = w ++ tokenRest previous b rest ∧
      (scan previous b rest).size = w.length + 1 := by
  have positive := (scan_sound previous b rest).size
  have inside := scan_le previous b rest
  rw [List.length_cons] at inside
  obtain ⟨n, hn⟩ : ∃ n, (scan previous b rest).size = n + 1 :=
    ⟨_, (Nat.succ_pred_eq_of_pos positive).symm⟩
  refine ⟨rest.take n, ?_, ?_, ?_⟩
  · rw [tokenBytes, hn, List.take_succ_cons]
  · rw [tokenRest, hn, Nat.add_sub_cancel, List.take_append_drop]
  · rw [hn, List.length_take]
    omega

/-- The second list is read without an error and says what the first says. -/
structure Respelled (l again : TokenList) : Prop where
  faults : again.faults = []
  content : again.tokens.map Token.content = l.tokens.map Token.content

/-- A space or nothing. -/
def Lead (lead : Bytes) : Prop := lead = [] ∨ lead = [Byte.space]

lemma Lead.scan (h : Lead lead) (text : Bytes) :
    Gap.scan (lead ++ text) = (Gap.scan text).after lead.length := by
  rcases h with rfl | rfl
  · rfl
  · exact Gap.scan_space text

/-- What is read again starts where a token started. -/
lemma Lead.drop (h : Lead lead) (none : Gap.scan text = Gap.empty) :
    (lead ++ text).drop (Gap.scan (lead ++ text)).size = text := by
  rw [h.scan, none]
  change (lead ++ text).drop (0 + lead.length) = text
  rw [Nat.zero_add, List.drop_left]

lemma Lead.gapFaults (h : Lead lead) (none : Gap.scan text = Gap.empty) (all : Bytes) :
    gapFaults file place (Gap.scan (lead ++ text)) all = [] := by
  rw [h.scan, none]
  rfl

/-- The tokens of the rest of a file, read again from their spelling in any file. -/
def ReadAgain (previous : Option TokenKind) (l : TokenList) : Prop :=
  ∀ lead, Lead lead → ∀ file place,
    Respelled l (scanFrom file previous place (lead ++ Token.spelling l.tokens))

lemma readAgain_end (h : text.drop (Gap.scan text).size = []) :
    ReadAgain previous (scanFrom file previous place text) := by
  intro lead hl file' place'
  rw [scanFrom_end h]
  have nothing : Token.spelling [endToken file place text] = [] := rfl
  rw [nothing, scanFrom_end (hl.drop rfl)]
  exact ⟨hl.gapFaults rfl _, rfl⟩

lemma readAgain_token (h : text.drop (Gap.scan text).size = b :: rest)
    (right : (scanFrom file previous place text).faults = [])
    (behind : ReadAgain (some (scan previous b rest).kind)
      (afterToken file previous place text b rest)) :
    ReadAgain previous (scanFrom file previous place text) := by
  intro lead hl file' place'
  obtain ⟨w, bytes, split, size⟩ := tokenBytes_cons previous b rest
  rw [scanFrom_token h] at right ⊢
  have errors : (scan previous b rest).errors = [] :=
    List.map_eq_nil_iff.mp
      (List.append_eq_nil_iff.mp (List.append_eq_nil_iff.mp right).1).2
  generalize hm : afterToken file previous place text b rest = more at behind ⊢
  have spelled : Token.spelling (nextToken file previous place text b rest :: more.tokens) =
      b :: spaced w (Token.spelling more.tokens) := by
    rw [Token.spelling_cons _ (hm ▸ scanFrom_ne_nil _ _ _ _)]
    change spaced (tokenBytes previous b rest) _ = _
    rw [bytes]
    rfl
  have same : scan previous b (spaced w (Token.spelling more.tokens)) = scan previous b rest := by
    rw [split] at size errors ⊢
    exact scan_spaced previous _ ⟨size, errors⟩
  have noGap : Gap.scan (b :: spaced w (Token.spelling more.tokens)) = Gap.empty := by
    have here := Gap.scan_behind .blanks text
    change Gap.scan (text.drop (Gap.scan text).size) = _ at here
    rw [h, split] at here
    exact Gap.scan_spaced here
  change Respelled _ (scanFrom file' previous place' (lead ++ Token.spelling (_ :: more.tokens)))
  rw [spelled, scanFrom_token (hl.drop noGap)]
  have lexeme : tokenBytes previous b (spaced w (Token.spelling more.tokens)) =
      tokenBytes previous b rest := by
    rw [bytes, tokenBytes, same, size]
    change (b :: w ++ _).take (b :: w).length = _
    exact List.take_left
  have following : tokenRest previous b (spaced w (Token.spelling more.tokens)) =
      [Byte.space] ++ Token.spelling more.tokens := by
    rw [tokenRest, same, size]
    exact List.drop_left
  have again := behind _ (.inr rfl) file' (tokenEnd previous place' (lead ++ b :: spaced w
    (Token.spelling more.tokens)) b (spaced w (Token.spelling more.tokens)))
  rw [← following, ← same] at again
  refine ⟨?_, ?_⟩
  · refine List.append_eq_nil_iff.mpr ⟨List.append_eq_nil_iff.mpr ⟨hl.gapFaults noGap _, ?_⟩,
      again.faults⟩
    rw [nextFaults, same, errors]
    rfl
  · refine List.cons_eq_cons.mpr ⟨?_, again.content⟩
    simp only [Token.content, nextToken, same, lexeme]

lemma scanFrom_readAgain (file : Bytes) (previous : Option TokenKind) (place : Place)
    (text : Bytes) : (scanFrom file previous place text).faults = [] →
      ReadAgain previous (scanFrom file previous place text) := by
  refine scanFrom_induction (P := fun previous place text =>
    (scanFrom file previous place text).faults = [] →
      ReadAgain previous (scanFrom file previous place text)) ?_ ?_ previous place text
  · intro previous place text h _
    exact readAgain_end h
  · intro previous place text b rest h behind right
    refine readAgain_token h right (behind ?_)
    rw [scanFrom_token h] at right
    exact (List.append_eq_nil_iff.mp right).2

end TokenList

namespace Source

open TokenList

/-- **What tokens are spelled as is read as these tokens.** If the tokens of a source are read
without an error, the text of their lexemes, joined by single spaces, is read without an error, too,
as as many tokens of the same kinds, lexemes and values. -/
theorem tokens_respelled (s : Source) (name : Bytes) (right : s.tokens.faults = []) :
    let again : Source := ⟨name, Token.spelling s.tokens.tokens⟩
    again.tokens.faults = [] ∧
      again.tokens.tokens.map Token.content = s.tokens.tokens.map Token.content := by
  intro again
  have respelled := scanFrom_readAgain s.name none .first s.content right [] (.inl rfl) name .first
  exact ⟨respelled.faults, respelled.content⟩

/-- The text `a=1. /b/g.c/2`, in which one slash divides and two enclose an expression. -/
theorem tokens_respelled_slashes :
    let s : Source := ⟨[], ascii "a=1. /b/ /b/g.c/2"⟩
    s.tokens.faults = [] ∧
    let again : Source := ⟨[], Token.spelling s.tokens.tokens⟩
    again.content = ascii "a = 1. / b / /b/g . c / 2 " ∧ again.tokens.faults = [] ∧
      again.tokens.tokens.map Token.content = s.tokens.tokens.map Token.content := by
  intro s
  have right : s.tokens.faults = [] := by decide +kernel
  exact ⟨right, by decide +kernel, tokens_respelled s [] right⟩

end Source

end ModuleLint
