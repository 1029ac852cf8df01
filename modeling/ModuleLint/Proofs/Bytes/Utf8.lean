import Mathlib.Tactic.Common
import Mathlib.Data.Nat.Bitwise
import ModuleLint.Bytes.Utf8

/-!
UTF-8 character by character.

A valid text is a sequence of characters, each a byte of ASCII or bytes outside it, and each may be
taken off. What `encode` writes is a character exactly for the numbers of `hasEncoding`.
-/

namespace ModuleLint.Utf8

/-- Bits below a marker are added to it. -/
lemma marked_eq_add (mark : Nat) {bits n : Nat} (h : n < 2 ^ bits) :
    2 ^ bits * mark ||| n = n + 2 ^ bits * mark := by
  rw [← Nat.two_pow_add_eq_or_of_lt h, Nat.add_comm]

lemma continuation_eq (n : Nat) : continuation n = UInt8.ofNat (n % 64 + 128) := by
  have low : n % 64 < 2 ^ 6 := Nat.mod_lt _ (by decide)
  have mask : n &&& 0x3F = n % 64 := Nat.and_two_pow_sub_one_eq_mod n 6
  have marked : 0x80 ||| n % 64 = n % 64 + 128 := marked_eq_add 2 low
  rw [continuation, mask, marked]

/-! ### Characters -/

/-- Bytes that can be taken off the head of a text. -/
structure IsCharacter (w : Bytes) : Prop where
  ascii_or_high : (∃ b < 0x80, w = [b]) ∨ (w ≠ [] ∧ ∀ b ∈ w, 0x80 ≤ b)
  isValid_append : ∀ u, isValid (w ++ u) = isValid u

lemma IsCharacter.ne_nil {w : Bytes} (h : IsCharacter w) : w ≠ [] := by
  rcases h.ascii_or_high with ⟨b, -, rfl⟩ | ⟨some, -⟩
  · exact List.cons_ne_nil b []
  · exact some

lemma high_of_isContinuation {b : UInt8} (h : isContinuation b) : 0x80 ≤ b := by
  simpa using (Bool.and_eq_true_iff.mp h).1

/-- The second byte of a character of three or four. -/
lemma high_of_starts {a b : UInt8} (h : startsThree a b ∨ startsFour a b) : 0x80 ≤ b := by
  simp only [startsThree, startsFour, Bool.or_eq_true, Bool.and_eq_true, decide_eq_true_eq] at h
  rcases h with ((⟨⟨-, h⟩, -⟩ | ⟨⟨-, h⟩, -⟩) | ⟨-, h⟩) | ((⟨⟨-, h⟩, -⟩ | ⟨⟨-, h⟩, -⟩) | ⟨-, h⟩)
  · exact UInt8.le_trans (by decide) h
  · exact h
  · exact high_of_isContinuation h
  · exact UInt8.le_trans (by decide) h
  · exact h
  · exact high_of_isContinuation h

lemma isValid_ascii {a : UInt8} (low : a < 0x80) (u : Bytes) : isValid (a :: u) = isValid u := by
  rw [isValid.eq_def]
  simp only [low, if_true]

lemma isValid_ascii_append {w : Bytes} (low : ∀ b ∈ w, b < 0x80) (u : Bytes) :
    isValid (w ++ u) = isValid u := by
  induction w with
  | nil => rfl
  | cons a w ih =>
    obtain ⟨first, more⟩ := List.forall_mem_cons.mp low
    rw [List.cons_append, isValid_ascii first, ih more]

lemma isCharacter_ascii {a : UInt8} (low : a < 0x80) : IsCharacter [a] :=
  ⟨.inl ⟨a, low, rfl⟩, isValid_ascii low⟩

/-- A valid text starts with a character. -/
lemma exists_character {text : Bytes} (h : isValid text) (some : text ≠ []) :
    ∃ w r, text = w ++ r ∧ IsCharacter w := by
  cases text with
  | nil => exact absurd rfl some
  | cons a rest =>
    rw [isValid.eq_def] at h
    dsimp only at h
    split at h
    case isTrue low =>
      exact ⟨[a], rest, rfl, isCharacter_ascii low⟩
    case isFalse notLow =>
    have high : 0x80 ≤ a := UInt8.not_lt.mp notLow
    split at h
    case isTrue two =>
      split at h
      case h_1 b rest =>
        obtain ⟨second, -⟩ := Bool.and_eq_true_iff.mp h
        refine ⟨[a, b], rest, rfl, .inr ⟨List.cons_ne_nil _ _, ?_⟩, fun u => ?_⟩
        · simp [high, high_of_isContinuation second]
        · simp [isValid, notLow, two, second]
      case h_2 => cases h
    case isFalse notTwo =>
    split at h
    case isTrue three =>
      split at h
      case h_1 b c rest =>
        simp only [Bool.and_eq_true] at h
        obtain ⟨⟨starts, last⟩, -⟩ := h
        refine ⟨[a, b, c], rest, rfl, .inr ⟨List.cons_ne_nil _ _, ?_⟩, fun u => ?_⟩
        · simp [high, high_of_starts (.inl starts), high_of_isContinuation last]
        · simp [isValid, notLow, notTwo, three, starts, last]
      case h_2 => cases h
    case isFalse notThree =>
      split at h
      case h_1 b c d rest =>
        simp only [Bool.and_eq_true] at h
        obtain ⟨⟨⟨starts, third⟩, last⟩, -⟩ := h
        refine ⟨[a, b, c, d], rest, rfl, .inr ⟨List.cons_ne_nil _ _, ?_⟩, fun u => ?_⟩
        · simp [high, high_of_starts (.inr starts), high_of_isContinuation third,
            high_of_isContinuation last]
        · simp [isValid, notLow, notTwo, notThree, starts, third, last]
      case h_2 => cases h

/-- What is behind a byte of ASCII is valid if the whole text is. -/
lemma isValid_of_append {u r : Bytes} {a : UInt8} (low : a < 0x80) (h : isValid (u ++ a :: r)) :
    isValid (a :: r) := by
  induction hn : u.length using Nat.strongRecOn generalizing u with
  | ind n ih =>
    subst hn
    obtain ⟨w, rest, split, character⟩ := exists_character h (by simp)
    have some : 0 < w.length := List.length_pos_iff.mpr character.ne_nil
    have behind : isValid rest := by rwa [split, character.isValid_append] at h
    rcases List.append_eq_append_iff.mp split with ⟨v, first, last⟩ | ⟨v, first, last⟩
    · rcases v with _ | ⟨c, v⟩
      · rw [last]
        exact behind
      · obtain ⟨rfl, -⟩ := List.cons_eq_cons.mp last
        rcases character.ascii_or_high with ⟨b, -, one⟩ | ⟨-, high⟩
        · have here : u = [] := by
            have size := congrArg List.length (first.symm.trans one)
            simp only [List.length_append, List.length_cons, List.length_nil] at size
            exact List.length_eq_zero_iff.mp (by omega)
          rwa [here] at h
        · exact absurd low (UInt8.not_lt.mpr (high a (by simp [first])))
    · rw [last] at behind
      exact ih _ (by rw [first, List.length_append]; omega) behind rfl

/-! ### Encoding -/

/-- The numbers below 2^24 that `encode` writes in UTF-8: scalar values, and above FFFF those that
differ from one in the bits 22 and 23, which the first byte does not show. -/
def hasEncoding (n : Nat) : Bool :=
  if n < 0x10000 then n < 0xD800 || 0xDFFF < n
  else 0x10000 ≤ n % 0x400000 && n % 0x400000 < 0x110000

lemma hasEncoding_low {n : Nat} (h : n < 0x800) : hasEncoding n := by
  simp only [hasEncoding, if_pos (show n < 0x10000 by omega), Bool.or_eq_true, decide_eq_true_eq]
  omega

lemma hasEncoding_of_isValidChar {n : Nat} (h : n.isValidChar) : hasEncoding n := by
  unfold Nat.isValidChar at h
  unfold hasEncoding
  split <;> simp <;> omega

section Marked

variable {a b c d : Nat} (u : Bytes)

lemma isContinuation_marked : ∀ b < 64, isContinuation (UInt8.ofNat (b + 128)) = true := by
  decide

lemma isValid_two (ha : a < 32) (least : 2 ≤ a) (hb : b < 64) :
    isValid (UInt8.ofNat (a + 192) :: UInt8.ofNat (b + 128) :: u) = isValid u := by
  have first : ∀ a < 32, 2 ≤ a → ¬ UInt8.ofNat (a + 192) < 0x80 ∧
      (0xC2 ≤ UInt8.ofNat (a + 192) && UInt8.ofNat (a + 192) ≤ 0xDF) = true := by
    decide
  obtain ⟨high, two⟩ := first a ha least
  rw [isValid.eq_def]
  simp only [high, two, if_true, if_false, isContinuation_marked b hb, Bool.true_and]

lemma isValid_three (ha : a < 16) (hc : c < 64) :
    isValid (UInt8.ofNat (a + 224) :: UInt8.ofNat (b + 128) :: UInt8.ofNat (c + 128) :: u) =
      (startsThree (UInt8.ofNat (a + 224)) (UInt8.ofNat (b + 128)) && isValid u) := by
  have first : ∀ a < 16, ¬ UInt8.ofNat (a + 224) < 0x80 ∧
      ¬ (0xC2 ≤ UInt8.ofNat (a + 224) && UInt8.ofNat (a + 224) ≤ 0xDF) = true ∧
      UInt8.ofNat (a + 224) < 0xF0 := by
    decide
  obtain ⟨high, two, three⟩ := first a ha
  rw [isValid.eq_def]
  simp only [high, two, three, if_true, if_false, Bool.false_eq_true, isContinuation_marked c hc,
    Bool.and_true]

lemma isValid_four (ha : a < 16) (hc : c < 64) (hd : d < 64) :
    isValid (UInt8.ofNat (a + 240) :: UInt8.ofNat (b + 128) :: UInt8.ofNat (c + 128) ::
        UInt8.ofNat (d + 128) :: u) =
      (startsFour (UInt8.ofNat (a + 240)) (UInt8.ofNat (b + 128)) && isValid u) := by
  have first : ∀ a < 16, ¬ UInt8.ofNat (a + 240) < 0x80 ∧
      ¬ (0xC2 ≤ UInt8.ofNat (a + 240) && UInt8.ofNat (a + 240) ≤ 0xDF) = true ∧
      ¬ UInt8.ofNat (a + 240) < 0xF0 := by
    decide
  obtain ⟨high, two, three⟩ := first a ha
  rw [isValid.eq_def]
  simp only [high, two, three, if_false, Bool.false_eq_true, isContinuation_marked c hc,
    isContinuation_marked d hd, Bool.and_true]

lemma startsThree_marked : ∀ a < 16, ∀ b < 64,
    startsThree (UInt8.ofNat (a + 224)) (UInt8.ofNat (b + 128)) =
      decide (32 ≤ a * 64 + b ∧ (a * 64 + b < 864 ∨ 895 < a * 64 + b)) := by
  decide +kernel

lemma startsFour_marked : ∀ a < 16, ∀ b < 64,
    startsFour (UInt8.ofNat (a + 240)) (UInt8.ofNat (b + 128)) =
      decide (16 ≤ a * 64 + b ∧ a * 64 + b < 272) := by
  decide +kernel

end Marked

/-- **What is written of a number is a character or makes the text invalid.** -/
lemma isValid_encode {n : Nat} (bound : n < 0x1000000) (u : Bytes) :
    isValid (encode n ++ u) = (hasEncoding n && isValid u) := by
  unfold encode
  simp only [continuation_eq, Nat.shiftRight_eq_div_pow]
  split
  case isTrue one =>
    have low : n.toUInt8 < 0x80 := by
      rw [UInt8.lt_iff_toNat_lt, Nat.toUInt8_eq, UInt8.toNat_ofNat', Nat.mod_eq_of_lt (by omega)]
      exact one
    rw [List.singleton_append, isValid_ascii low, hasEncoding_low (by omega), Bool.true_and]
  case isFalse one =>
  split
  case isTrue two =>
    have marked : 0xC0 ||| n / 2 ^ 6 = n / 64 + 192 :=
      marked_eq_add 6 (show n / 2 ^ 6 < 2 ^ 5 by omega)
    rw [marked, hasEncoding_low two, Bool.true_and]
    exact isValid_two u (by omega) (by omega) (by omega)
  case isFalse two =>
  split
  case isTrue three =>
    have marked : 0xE0 ||| n / 2 ^ 12 = n / 4096 + 224 :=
      marked_eq_add 14 (show n / 2 ^ 12 < 2 ^ 4 by omega)
    have starts := startsThree_marked (n / 4096) (by omega) (n / 64 % 64) (by omega)
    rw [show n / 4096 * 64 + n / 64 % 64 = n / 64 by omega] at starts
    have has : hasEncoding n = decide (32 ≤ n / 64 ∧ (n / 64 < 864 ∨ 895 < n / 64)) := by
      rw [hasEncoding, if_pos three, Bool.eq_iff_iff]
      simp only [Bool.or_eq_true, decide_eq_true_eq]
      omega
    rw [marked, has, ← starts]
    exact isValid_three u (by omega) (by omega)
  case isFalse three =>
    have first : ∀ m < 64, 0xF0 ||| m = m % 16 + 240 := by decide
    have marked := first (n / 2 ^ 18) (by omega)
    have starts := startsFour_marked (n / 2 ^ 18 % 16) (by omega) (n / 4096 % 64) (by omega)
    rw [show n / 2 ^ 18 % 16 * 64 + n / 4096 % 64 = n % 0x400000 / 4096 by omega] at starts
    have has : hasEncoding n =
        decide (16 ≤ n % 0x400000 / 4096 ∧ n % 0x400000 / 4096 < 272) := by
      rw [hasEncoding, if_neg three, Bool.eq_iff_iff]
      simp only [Bool.and_eq_true, decide_eq_true_eq]
      omega
    rw [marked, has, ← starts]
    exact isValid_four u (by omega) (by omega) (by omega)

end ModuleLint.Utf8
