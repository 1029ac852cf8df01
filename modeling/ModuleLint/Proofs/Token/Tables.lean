import Mathlib.Tactic.Common
import ModuleLint.Token.Lexeme

/-!
What is recognised and what is displayed.

Keywords are found in a table, punctuators by their bytes one after another, and neither looks at
how a kind is displayed. A word is found to be a keyword exactly if the keyword is displayed as that
word, and a punctuator is read exactly if its display text is the longest at the head of the text.
-/

namespace ModuleLint

namespace TokenKind

variable {word : Bytes} {k : TokenKind}

lemma keyword?_eq_some_iff : keyword? word = some k ↔ k ∈ keywords ∧ k.text = word := by
  constructor
  · intro found
    have displayed : ∀ p ∈ keywordTable, p.2 ∈ keywords ∧ p.2.text = p.1 := by decide
    obtain ⟨before, after, split, -⟩ := List.lookup_eq_some_iff.mp found
    refine displayed (word, k) ?_
    rw [split]
    exact List.mem_append_right _ List.mem_cons_self
  · rintro ⟨member, rfl⟩
    have complete : ∀ k ∈ keywords, keyword? k.text = some k := by decide
    exact complete k member

lemma mem_keywords (h : keyword? word = some k) : k ∈ keywords := (keyword?_eq_some_iff.mp h).1

/-- A word that is not in the table is the display text of no keyword. -/
lemma text_ne_of_keyword? (h : keyword? word = none) (member : k ∈ keywords) : k.text ≠ word := by
  intro same
  rw [keyword?_eq_some_iff.mpr ⟨member, same⟩] at h
  cases h

end TokenKind

namespace Lexeme

variable {b : UInt8} {rest text w : Bytes} {c d e f : Char} {k l : TokenKind} {n : Nat}

/-! ### Bytes that are looked at -/

lemma peek_iff : peek n c text = true ↔ text[n]? = some (byte c) := beq_iff_eq

/-- One byte stands at an index. -/
lemma peek_of_peek (h : peek n c text) : peek n d text = (byte c == byte d) := by
  rw [peek, peek_iff.mp h]
  rfl

lemma peek_tail : peek n c text.tail = peek (n + 1) c text := by
  rw [peek, peek, List.getElem?_tail]

lemma cons_prefix_iff : byte c :: w <+: text ↔ peek 0 c text ∧ w <+: text.tail := by
  cases text with
  | nil => simp [peek]
  | cons x text =>
    rw [List.cons_prefix_cons, peek_iff, List.getElem?_cons_zero, Option.some_inj, List.tail_cons,
      @eq_comm _ x]

lemma prefix_one_iff : [byte c] <+: b :: rest ↔ b = byte c := by
  rw [List.cons_prefix_cons, @eq_comm _ b]
  exact and_iff_left List.nil_prefix

lemma prefix_two_iff : [byte c, byte d] <+: b :: rest ↔ b = byte c ∧ peek 0 d rest := by
  rw [List.cons_prefix_cons, cons_prefix_iff, @eq_comm _ b]
  exact and_congr_right fun _ => and_iff_left List.nil_prefix

lemma prefix_three_iff : [byte c, byte d, byte e] <+: b :: rest ↔
    b = byte c ∧ peek 0 d rest ∧ peek 1 e rest := by
  rw [List.cons_prefix_cons, cons_prefix_iff, cons_prefix_iff, peek_tail, @eq_comm _ b]
  exact and_congr_right fun _ => and_congr_right fun _ => and_iff_left List.nil_prefix

lemma prefix_four_iff : [byte c, byte d, byte e, byte f] <+: b :: rest ↔
    b = byte c ∧ peek 0 d rest ∧ peek 1 e rest ∧ peek 2 f rest := by
  rw [List.cons_prefix_cons, cons_prefix_iff, cons_prefix_iff, cons_prefix_iff, peek_tail,
    peek_tail, peek_tail, @eq_comm _ b]
  exact and_congr_right fun _ => and_congr_right fun _ => and_congr_right fun _ =>
    and_iff_left List.nil_prefix

/-! ### Punctuators -/

/-- Wherever the search ends, the bytes it looked at are the display text of what it found. The
cases are grouped by the number of bytes. -/
lemma punctuator_spelled (b : UInt8) (rest : Bytes) :
    (∃ k ∈ TokenKind.punctuators, punctuator b rest = plain k k.text.length ∧
      k.text <+: b :: rest) ∨ punctuator b rest = wrong (.unexpected b) 1 := by
  fun_cases punctuator b rest
  case case1 | case2 | case3 | case4 | case5 | case6 | case7 | case8 | case9 | case10 | case12 |
      case14 | case18 | case21 | case24 | case27 | case31 | case33 | case35 | case39 | case45 |
      case48 | case51 | case53 =>
    exact .inl ⟨_, by decide, rfl, prefix_one_iff.mpr ‹_›⟩
  case case13 | case15 | case17 | case20 | case22 | case23 | case25 | case26 | case29 | case30 |
      case32 | case34 | case37 | case38 | case43 | case44 | case46 | case47 | case49 | case50 |
      case52 =>
    exact .inl ⟨_, by decide, rfl, prefix_two_iff.mpr ⟨‹_›, ‹_›⟩⟩
  case case16 | case19 | case28 | case36 | case41 | case42 =>
    exact .inl ⟨_, by decide, rfl, prefix_three_iff.mpr ⟨‹_›, ‹_›, ‹_›⟩⟩
  case case11 first dots =>
    exact .inl ⟨_, by decide, rfl, prefix_three_iff.mpr ⟨first, Bool.and_eq_true_iff.mp dots⟩⟩
  case case40 => exact .inl ⟨_, by decide, rfl, prefix_four_iff.mpr ⟨‹_›, ‹_›, ‹_›, ‹_›⟩⟩
  case case54 => exact .inr rfl

/-- The search does not end before a display text that is at the head of the text. -/
lemma punctuator_reaches (member : k ∈ TokenKind.punctuators) (starts : k.text <+: b :: rest) :
    (punctuator b rest).kind ≠ .error ∧ k.text.length ≤ (punctuator b rest).size := by
  cases k
  case lparen | rparen | lbrace | rbrace | lbracket | rbracket | semi | comma | colon | tilde =>
    obtain rfl := prefix_one_iff.mp starts
    exact ⟨nofun, Nat.le_refl _⟩
  case dot | question | assign | bang | plus | minus | star | slash | percent | lt | gt | bitAnd |
      bitOr | bitXor =>
    obtain rfl := prefix_one_iff.mp starts
    simp +decide only [punctuator, if_true, if_false]
    split_ifs <;> decide
  case eq | ne | starStar | shl | shr =>
    obtain ⟨rfl, second⟩ := prefix_two_iff.mp starts
    simp +decide only [punctuator, peek_of_peek second, if_true, if_false]
    split_ifs <;> decide
  case questionQuestion | arrow | plusPlus | plusAssign | minusMinus | minusAssign | starAssign |
      slashAssign | percentAssign | le | ge | andAnd | bitAndAssign | orOr | bitOrAssign |
      bitXorAssign =>
    obtain ⟨rfl, second⟩ := prefix_two_iff.mp starts
    simp +decide only [punctuator, peek_of_peek second, if_true, if_false]
  case ushr =>
    obtain ⟨rfl, second, third⟩ := prefix_three_iff.mp starts
    simp +decide only [punctuator, peek_of_peek second, peek_of_peek third, if_true, if_false]
    split_ifs <;> decide
  case ellipsis | strictEq | strictNe | starStarAssign | shlAssign | shrAssign =>
    obtain ⟨rfl, second, third⟩ := prefix_three_iff.mp starts
    simp +decide only [punctuator, peek_of_peek second, peek_of_peek third, if_true, if_false]
  case ushrAssign =>
    obtain ⟨rfl, second, third, fourth⟩ := prefix_four_iff.mp starts
    simp +decide only [punctuator, peek_of_peek second, peek_of_peek third,
      peek_of_peek fourth, if_true, if_false]
  all_goals exact absurd member (by decide)

/-- The punctuator is displayed as the head of a text, and no longer one is. -/
structure LongestHead (k : TokenKind) (text : Bytes) : Prop where
  member : k ∈ TokenKind.punctuators
  starts : k.text <+: text
  longest : ∀ l ∈ TokenKind.punctuators, l.text <+: text → l.text.length ≤ k.text.length

/-- What is read as a punctuator is the longest at the head of the text, if there is one. -/
lemma punctuator_cases (b : UInt8) (rest : Bytes) :
    (∃ k, LongestHead k (b :: rest) ∧ punctuator b rest = plain k k.text.length) ∨
      punctuator b rest = wrong (.unexpected b) 1 := by
  refine (punctuator_spelled b rest).imp_left fun ⟨k, member, reads, starts⟩ => ?_
  refine ⟨k, ⟨member, starts, fun l other longer => ?_⟩, reads⟩
  have reaches := (punctuator_reaches other longer).2
  rw [reads] at reaches
  exact reaches

/-- Display texts tell punctuators apart: each of them is read back. -/
lemma LongestHead.unique (h : LongestHead k text) (h' : LongestHead l text) : k = l := by
  have readBack : ∀ k ∈ TokenKind.punctuators,
      k.text.head?.map (fun b => (punctuator b k.text.tail).kind) = some k := by decide
  have length : k.text.length = l.text.length :=
    Nat.le_antisymm (h'.longest k h.member h.starts) (h.longest l h'.member h'.starts)
  have begins := List.prefix_of_prefix_length_le h.starts h'.starts (Nat.le_of_eq length)
  have first := readBack k h.member
  rw [begins.eq_of_length length, readBack l h'.member] at first
  exact (Option.some_inj.mp first).symm

lemma LongestHead.reads (h : LongestHead k (b :: rest)) :
    punctuator b rest = plain k k.text.length := by
  obtain ⟨l, longest, reads⟩ | failed := punctuator_cases b rest
  · rw [reads, h.unique longest]
  · have noError := (punctuator_reaches h.member h.starts).1
    rw [failed] at noError
    exact absurd rfl noError

end Lexeme

end ModuleLint
