import Mathlib.Data.Bool.AllAny
import ModuleLint.Proofs.Token.Spelling

/-!
The values of strings and templates as UTF-8.

A quoted literal without an error is a sequence of parts, and a part is a character that stands for
itself, a line end that is taken away, or an escape. In a valid text only a part with a number can
make the value invalid: the number goes through the encoder, whatever it is.
-/

namespace ModuleLint

namespace Lexeme

/-! ### Numbers in escapes -/

/-- One more hexadecimal digit of a number. -/
def moreDigits (n : Nat) (d : UInt8) : Nat := n * 16 + (Byte.hexValue? d).getD 0

/-- The number that hexadecimal digits write. -/
def hexNumber (digits : Bytes) : Nat := digits.foldl moreDigits 0

/-- The number of an escape, if it writes one: its letter and the text behind it. -/
def escapedNumber? (letter : UInt8) (text : Bytes) : Option Nat :=
  if letter = byte 'x' then some (hexNumber (text.take 2))
  else if letter = byte 'u' then
    if headIs (· == Byte.openBrace) text then
      some (hexNumber (text.tail.takeWhile (· != Byte.closeBrace)))
    else some (hexNumber (text.take 4))
  else none

/-- The numbers that the escapes in a literal write. -/
def escapedNumbers : Bytes → List Nat
  | b :: c :: rest =>
    if b = Byte.backslash then (escapedNumber? c rest).toList ++ escapedNumbers rest
    else escapedNumbers (c :: rest)
  | _ => []

variable {b c d : UInt8} {text w v r ds u : Bytes} {n read value missing room : Nat}

lemma escapedNumbers_backslash : escapedNumbers (Byte.backslash :: c :: r) =
    (escapedNumber? c r).toList ++ escapedNumbers r := by
  rw [escapedNumbers, if_pos rfl]

lemma escapedNumbers_append (h : Byte.backslash ∉ w) :
    escapedNumbers (w ++ r) = escapedNumbers r := by
  induction w with
  | nil => rfl
  | cons b w ih =>
    obtain ⟨other, more⟩ := not_or.mp (mt List.mem_cons.mpr h)
    rw [List.cons_append, ← ih more]
    cases w ++ r with
    | nil => rfl
    | cons c rest => rw [escapedNumbers, if_neg (Ne.symm other)]

lemma hexValue?_sound (h : Byte.hexValue? d = some n) : n < 16 ∧ d < 0x80 ∧
    d ≠ Byte.backslash ∧ d ≠ Byte.openBrace ∧ d ≠ Byte.closeBrace := by
  have each : ∀ m < 256, ∀ n ∈ Byte.hexValue? (UInt8.ofNat m), n < 16 ∧ UInt8.ofNat m < 0x80 ∧
      UInt8.ofNat m ≠ Byte.backslash ∧ UInt8.ofNat m ≠ Byte.openBrace ∧
      UInt8.ofNat m ≠ Byte.closeBrace := by
    decide +kernel
  have this := each d.toNat d.toNat_lt n
  rw [UInt8.ofNat_toNat] at this
  exact this h

/-- Hexadecimal digits. -/
def AreDigits (ds : Bytes) : Prop := ∀ d ∈ ds, (Byte.hexValue? d).isSome

lemma areDigits_nil : AreDigits [] := List.forall_mem_nil _

lemma AreDigits.sound (h : AreDigits ds) (hd : d ∈ ds) : d < 0x80 ∧ d ≠ Byte.backslash ∧
    d ≠ Byte.openBrace ∧ d ≠ Byte.closeBrace := by
  obtain ⟨n, value⟩ := Option.isSome_iff_exists.mp (h d hd)
  exact (hexValue?_sound value).2

lemma AreDigits.no_backslash (h : AreDigits ds) : Byte.backslash ∉ ds :=
  fun mem => (h.sound mem).2.1 rfl

lemma AreDigits.isValid_append (h : AreDigits ds) (u : Bytes) :
    Utf8.isValid (ds ++ u) = Utf8.isValid u :=
  Utf8.isValid_ascii_append (fun _ hd => (h.sound hd).1) u

lemma foldl_moreDigits_lt (h : AreDigits ds) (n : Nat) :
    ds.foldl moreDigits n < (n + 1) * 16 ^ ds.length := by
  induction ds generalizing n with
  | nil => simp
  | cons d ds ih =>
    obtain ⟨first, more⟩ := List.forall_mem_cons.mp h
    obtain ⟨v, value⟩ := Option.isSome_iff_exists.mp first
    have small := (hexValue?_sound value).1
    have next : moreDigits n d + 1 ≤ (n + 1) * 16 := by
      rw [moreDigits, value, Option.getD_some]
      omega
    calc
      (d :: ds).foldl moreDigits n < (moreDigits n d + 1) * 16 ^ ds.length := ih more _
      _ ≤ (n + 1) * 16 * 16 ^ ds.length := Nat.mul_le_mul_right _ next
      _ = (n + 1) * 16 ^ (d :: ds).length := by
        rw [List.length_cons, Nat.pow_succ', Nat.mul_assoc]

lemma hexNumber_lt (h : AreDigits ds) (six : ds.length ≤ 6) : hexNumber ds < 0x1000000 := by
  have bound := foldl_moreDigits_lt h 0
  have power : 16 ^ ds.length ≤ 16 ^ 6 := Nat.pow_le_pow_right (by decide) six
  rw [hexNumber]
  omega

namespace Escape

/-! ### Right escapes -/

lemma hex_right (h : (hex text).error = none) : ∃ ds r, text = ds ++ r ∧ ds.length = 2 ∧
    AreDigits ds ∧ hex text = right 3 (Utf8.encode (hexNumber ds)) := by
  match text with
  | [] | [_] => cases h
  | a :: b :: rest =>
    unfold hex at h ⊢
    dsimp only at h ⊢
    split at h
    case h_1 hi lo first second =>
      refine ⟨[a, b], rest, rfl, rfl, ?_, ?_⟩
      · simp [AreDigits, first, second]
      · simp [hexNumber, moreDigits, first, second]
    case h_2 => cases h

lemma fixed_right (h : (fixed read value missing text).error = none) :
    ∃ ds r, text = ds ++ r ∧ ds.length = missing ∧ AreDigits ds ∧
      fixed read value missing text =
        right (read + missing) (Utf8.encode (ds.foldl moreDigits value)) := by
  induction missing generalizing read value text with
  | zero => exact ⟨[], text, rfl, rfl, areDigits_nil, rfl⟩
  | succ missing ih =>
    cases text with
    | nil => cases h
    | cons d text =>
      unfold fixed at h ⊢
      rw [List.head?_cons, Option.bind_some] at h ⊢
      cases digit : Byte.hexValue? d with
      | none =>
        rw [digit] at h
        cases h
      | some n =>
        rw [digit] at h
        obtain ⟨ds, r, split, length, digits, reads⟩ := ih h
        refine ⟨d :: ds, r, congrArg (d :: ·) split, congrArg (· + 1) length, ?_, ?_⟩
        · exact List.forall_mem_cons.mpr ⟨by rw [digit]; rfl, digits⟩
        · dsimp only
          rw [List.tail_cons] at reads ⊢
          rw [reads, List.foldl_cons, moreDigits, digit]
          congr 1
          omega

/-- Unless it reaches the end of the text, a right escape has its closing brace. -/
lemma braced_right (h : (braced read value room text).error = none)
    (within : (braced read value room text).size < read + text.length) :
    ∃ ds r, text = ds ++ Byte.closeBrace :: r ∧ ds.length ≤ room ∧ AreDigits ds ∧
      braced read value room text =
        right (read + ds.length + 1) (Utf8.encode (ds.foldl moreDigits value)) := by
  induction text generalizing read value room with
  | nil =>
    rw [braced.eq_def] at within
    exact absurd within (Nat.lt_irrefl read)
  | cons b rest ih =>
    rw [braced.eq_def] at h within ⊢
    dsimp only at h within ⊢
    by_cases closes : b = Byte.closeBrace
    · subst closes
      exact ⟨[], rest, rfl, Nat.zero_le _, areDigits_nil, if_pos rfl⟩
    · rw [if_neg closes] at h within ⊢
      cases digit : Byte.hexValue? b with
      | none =>
        rw [digit] at h
        cases h
      | some n =>
        rw [digit] at h within
        cases room with
        | zero => cases h
        | succ room =>
          dsimp only at h within ⊢
          rw [List.length_cons] at within
          obtain ⟨ds, r, split, length, digits, reads⟩ := ih h (by omega)
          refine ⟨b :: ds, r, congrArg (b :: ·) split, Nat.succ_le_succ length, ?_, ?_⟩
          · exact List.forall_mem_cons.mpr ⟨by rw [digit]; rfl, digits⟩
          · rw [reads, List.foldl_cons, moreDigits, digit, List.length_cons]
            congr 1
            omega

end Escape

/-! ### Parts of a literal -/

/-- Bytes of a literal that stand for `v` and write some numbers. Whether the value is valid depends
on the numbers alone. -/
structure Part (w v : Bytes) (numbers : List Nat) : Prop where
  escapedNumbers_append : ∀ r, escapedNumbers (w ++ r) = numbers ++ escapedNumbers r
  isValid_append : ∀ u,
    Utf8.isValid (v ++ u) = (numbers.all Utf8.hasEncoding && Utf8.isValid u)

lemma part_itself (character : Utf8.IsCharacter w) (h : Byte.backslash ∉ w) : Part w w [] where
  escapedNumbers_append _ := escapedNumbers_append h
  isValid_append := character.isValid_append

/-- An escape without a number. -/
lemma part_escaped (plain : ∀ r, escapedNumber? c r = none) (h : Byte.backslash ∉ w)
    (valid : ∀ u, Utf8.isValid (v ++ u) = Utf8.isValid u) :
    Part (Byte.backslash :: c :: w) v [] where
  escapedNumbers_append r := by
    rw [List.cons_append, List.cons_append, escapedNumbers_backslash, plain,
      Lexeme.escapedNumbers_append h]
    rfl
  isValid_append := valid

lemma part_number (bound : n < 0x1000000) (h : Byte.backslash ∉ w)
    (names : ∀ r, escapedNumber? c (w ++ r) = some n) :
    Part (Byte.backslash :: c :: w) (Utf8.encode n) [n] where
  escapedNumbers_append r := by
    rw [List.cons_append, List.cons_append, escapedNumbers_backslash, names,
      Lexeme.escapedNumbers_append h]
    rfl
  isValid_append u := by
    rw [Utf8.isValid_encode bound, List.all_cons, List.all_nil, Bool.and_true]

/-- A literal without an error goes on with a part, and what is behind the part is valid. -/
def GoesOn (q : Quote) (read : Nat) (text : Bytes) : Prop :=
  ∃ w v numbers r, text = w ++ r ∧ w ≠ [] ∧ Part w v numbers ∧ Utf8.isValid r ∧
    quotedFrom q read text = behind v (quotedFrom q (read + w.length) r)

variable {q : Quote}

lemma goesOn_part {numbers : List Nat} (part : Part (Byte.backslash :: w) v numbers)
    (reads : Escape.read (w ++ r) = .right w.length v) (valid : Utf8.isValid r) :
    GoesOn q read (Byte.backslash :: (w ++ r)) := by
  have literal := @quotedFrom_right q _ read _ _ reads
  have size : read + 1 + w.length = read + (Byte.backslash :: w).length := by
    rw [List.length_cons]
    omega
  rw [List.drop_left, size] at literal
  exact ⟨_, v, numbers, r, rfl, List.cons_ne_nil _ _, part, valid, literal⟩

lemma goesOn_lineEnd {lineEnd : Bytes} (ends : lineEnd ∈ lineEnds)
    (reads : Escape.read (lineEnd ++ r) = .right lineEnd.length [])
    (valid : Utf8.isValid (lineEnd ++ r)) : GoesOn q read (Byte.backslash :: (lineEnd ++ r)) := by
  have each : ∀ e ∈ lineEnds, Byte.backslash ∉ e.tail ∧ e.all (· < 0x80) := by decide
  obtain ⟨plain, allLow⟩ := each lineEnd ends
  have low : ∀ b ∈ lineEnd, b < 0x80 := List.all_iff_forall_prop.mp allLow
  have part : Part (Byte.backslash :: lineEnd) [] [] := by
    simp only [lineEnds, List.mem_cons, List.not_mem_nil, or_false] at ends
    rcases ends with rfl | rfl | rfl <;> exact part_escaped (fun _ => rfl) plain fun _ => rfl
  rw [Utf8.isValid_ascii_append low] at valid
  exact goesOn_part part reads valid

lemma letter_low (low : b < 0x80) : (Escape.letters.lookup b).getD b < 0x80 := by
  have each : ∀ p ∈ Escape.letters, p.2 < 0x80 := List.all_iff_forall_prop.mp (by decide)
  cases found : Escape.letters.lookup b with
  | none => exact low
  | some v =>
    obtain ⟨before, behind, all, -⟩ := List.lookup_eq_some_iff.mp found
    exact each (b, v) (all ▸ List.mem_append_right _ List.mem_cons_self)

/-- A byte of ASCII behind a backslash that starts no line end and no number. -/
lemma goesOn_letter (reads : Escape.read (b :: r) = .right 1 [(Escape.letters.lookup b).getD b])
    (plain : ∀ r, escapedNumber? b r = none) (low : b < 0x80) (valid : Utf8.isValid r) :
    GoesOn q read (Byte.backslash :: b :: r) := by
  have part : Part [Byte.backslash, b] [(Escape.letters.lookup b).getD b] [] :=
    part_escaped plain List.not_mem_nil (Utf8.isValid_ascii (letter_low low))
  exact goesOn_part part reads valid

/-- Of a character outside ASCII behind a backslash all bytes stand for themselves. -/
lemma goesOn_high (high : 0x80 ≤ b) (valid : Utf8.isValid (b :: r)) :
    GoesOn q read (Byte.backslash :: b :: r) := by
  have free : ∀ d ∈ special, b ≠ byte d := by
    rintro d hd rfl
    exact absurd (special_low hd).2 (UInt8.not_lt.mpr high)
  obtain ⟨w, r', split, character⟩ := Utf8.exists_character valid (List.cons_ne_nil _ _)
  have validBehind : Utf8.isValid r' := by rwa [split, character.isValid_append] at valid
  rcases List.cons_eq_append_iff.mp split with ⟨none, -⟩ | ⟨w', rfl, rfl⟩
  · exact absurd none character.ne_nil
  have allHigh : ∀ d ∈ w', 0x80 ≤ d := by
    rcases character.ascii_or_high with ⟨d, low, one⟩ | ⟨-, all⟩
    · rw [(List.cons_eq_cons.mp one).2]
      exact nofun
    · exact fun d hd => all d (List.mem_cons_of_mem _ hd)
  have noBackslash : Byte.backslash ∉ w' := fun mem => absurd (allHigh _ mem) (by decide)
  have plain (r : Bytes) : escapedNumber? b r = none := by
    have other := free 'x' (by decide)
    have other' := free 'u' (by decide)
    rw [escapedNumber?, if_neg other, if_neg other']
  have part := part_escaped plain noBackslash character.isValid_append
  refine ⟨_, _, _, r', rfl, List.cons_ne_nil _ _, part, validBehind, ?_⟩
  have size : read + 1 + 1 + w'.length = read + (Byte.backslash :: b :: w').length := by
    simp only [List.length_cons]
    omega
  rw [quotedFrom_right (Escape.read_itself free (w' ++ r')), List.drop_one, List.tail_cons,
    quotedFrom_high allHigh, behind_behind, size]
  rfl

lemma goesOn_hex (right : (Escape.hex r).error = none) (valid : Utf8.isValid r) :
    GoesOn q read (Byte.backslash :: byte 'x' :: r) := by
  obtain ⟨ds, r, rfl, length, digits, reads⟩ := Escape.hex_right right
  rw [digits.isValid_append] at valid
  have names (u : Bytes) : escapedNumber? (byte 'x') (ds ++ u) = some (hexNumber ds) := by
    rw [escapedNumber?, if_pos rfl, ← length, List.take_left]
  have part := part_number (hexNumber_lt digits (by omega)) digits.no_backslash names
  refine goesOn_part (w := byte 'x' :: ds) part ?_ valid
  rw [List.length_cons, length]
  exact reads

lemma goesOn_fixed (right : (Escape.fixed 1 0 4 r).error = none)
    (unbraced : ¬ headIs (· == Byte.openBrace) r) (valid : Utf8.isValid r) :
    GoesOn q read (Byte.backslash :: byte 'u' :: r) := by
  obtain ⟨ds, r, rfl, length, digits, reads⟩ := Escape.fixed_right right
  rw [digits.isValid_append] at valid
  have nonempty : ds ≠ [] := List.length_pos_iff.mp (by omega)
  have names (u : Bytes) : escapedNumber? (byte 'u') (ds ++ u) = some (hexNumber ds) := by
    rw [headIs_append r u nonempty] at unbraced
    rw [escapedNumber?, if_neg (by decide), if_pos rfl, if_neg unbraced, ← length, List.take_left]
  have part := part_number (hexNumber_lt digits (by omega)) digits.no_backslash names
  refine goesOn_part (w := byte 'u' :: ds) part ?_ valid
  rw [List.cons_append, Escape.read, if_neg (by decide), if_neg (by decide), if_neg (by decide),
    if_pos rfl, if_neg unbraced, reads, List.length_cons, length]
  rfl

lemma goesOn_braced (right : (Escape.braced 2 0 6 r).error = none)
    (within : (Escape.braced 2 0 6 r).size < 2 + r.length) (valid : Utf8.isValid r) :
    GoesOn q read (Byte.backslash :: byte 'u' :: Byte.openBrace :: r) := by
  obtain ⟨ds, r, rfl, length, digits, reads⟩ := Escape.braced_right right within
  have noBackslash : Byte.backslash ∉ Byte.openBrace :: (ds ++ [Byte.closeBrace]) := by
    have braces : Byte.backslash ≠ Byte.openBrace ∧ Byte.backslash ≠ Byte.closeBrace := by decide
    simp [digits.no_backslash, braces]
  have validBehind : Utf8.isValid r := by
    rwa [digits.isValid_append, Utf8.isValid_ascii (by decide)] at valid
  have names (u : Bytes) :
      escapedNumber? (byte 'u') (Byte.openBrace :: (ds ++ [Byte.closeBrace]) ++ u) =
        some (hexNumber ds) := by
    have inside : ∀ d ∈ ds, (d != Byte.closeBrace) = true :=
      fun d hd => bne_iff_ne.mpr (digits.sound hd).2.2.2
    have digits : (ds ++ Byte.closeBrace :: u).takeWhile (· != Byte.closeBrace) = ds := by
      rw [List.takeWhile_append_of_pos inside, List.takeWhile_cons_of_neg (by decide),
        List.append_nil]
    rw [List.cons_append, List.append_assoc, List.singleton_append, escapedNumber?,
      if_neg (by decide), if_pos rfl, if_pos (by rfl), List.tail_cons, digits]
  have part := part_number (hexNumber_lt digits length) noBackslash names
  have whole : byte 'u' :: Byte.openBrace :: (ds ++ Byte.closeBrace :: r) =
      byte 'u' :: Byte.openBrace :: (ds ++ [Byte.closeBrace]) ++ r := by
    simp
  have size : 2 + ds.length + 1 =
      (byte 'u' :: Byte.openBrace :: (ds ++ [Byte.closeBrace])).length := by
    simp only [List.length_cons, List.length_append, List.length_nil]
    omega
  rw [whole]
  refine goesOn_part part ?_ validBehind
  rw [← whole, ← size]
  exact reads

lemma goesOn_carriageReturn (valid : Utf8.isValid (Byte.carriageReturn :: r)) :
    GoesOn q read (Byte.backslash :: Byte.carriageReturn :: r) := by
  by_cases two : headIs (· == Byte.lineFeed) r
  · cases r with
    | nil => cases two
    | cons c r =>
      obtain rfl : c = Byte.lineFeed := beq_iff_eq.mp two
      exact @goesOn_lineEnd r read q [Byte.carriageReturn, Byte.lineFeed] (by decide) rfl valid
  · refine @goesOn_lineEnd r read q [Byte.carriageReturn] (by decide) ?_ valid
    rw [List.singleton_append, Escape.read, if_neg (by decide), if_pos rfl, if_neg two]
    rfl

lemma goesOn_u (right : (Escape.read (byte 'u' :: r)).error = none)
    (within : (Escape.read (byte 'u' :: r)).size < r.length + 1) (valid : Utf8.isValid r) :
    GoesOn q read (Byte.backslash :: byte 'u' :: r) := by
  rw [Escape.read, if_neg (by decide), if_neg (by decide), if_neg (by decide), if_pos rfl]
    at right within
  split at right
  case isTrue braced =>
    rw [if_pos braced] at within
    cases r with
    | nil => cases braced
    | cons c r =>
      obtain rfl : c = Byte.openBrace := beq_iff_eq.mp braced
      rw [Utf8.isValid_ascii (by decide)] at valid
      refine goesOn_braced right (Nat.lt_of_lt_of_eq within ?_) valid
      rw [List.length_cons]
      omega
  case isFalse unbraced => exact goesOn_fixed right unbraced valid

/-- A right escape that does not reach the end of the text goes on with what is behind it. -/
lemma goesOn_escape (right : (Escape.read r).error = none)
    (within : (Escape.read r).size < r.length) (valid : Utf8.isValid r) :
    GoesOn q read (Byte.backslash :: r) := by
  cases r with
  | nil => cases within
  | cons b r =>
    have tail (low : b < 0x80) : Utf8.isValid r := by rwa [Utf8.isValid_ascii low] at valid
    by_cases lineFeed : b = Byte.lineFeed
    · subst lineFeed
      exact @goesOn_lineEnd r read q [Byte.lineFeed] (by decide) rfl valid
    by_cases carriageReturn : b = Byte.carriageReturn
    · subst carriageReturn
      exact goesOn_carriageReturn valid
    by_cases x : b = byte 'x'
    · subst x
      exact goesOn_hex right (tail (by decide))
    by_cases u : b = byte 'u'
    · subst u
      exact goesOn_u right within (tail (by decide))
    by_cases low : b < 0x80
    · have plain (r : Bytes) : escapedNumber? b r = none := by
        rw [escapedNumber?, if_neg x, if_neg u]
      refine goesOn_letter ?_ plain low (tail low)
      rw [Escape.read, if_neg lineFeed, if_neg carriageReturn, if_neg x, if_neg u]
    · exact goesOn_high (UInt8.not_lt.mp low) valid

/-- A character that neither ends the literal nor starts an escape stands for itself. -/
lemma goesOn_itself (escape : b ≠ Byte.backslash) (mark : b ≠ q.mark)
    (valid : Utf8.isValid (b :: r)) (right : (quotedFrom q read (b :: r)).errors = []) :
    GoesOn q read (b :: r) := by
  obtain ⟨w, r', split, character⟩ := Utf8.exists_character valid (List.cons_ne_nil _ _)
  have validBehind : Utf8.isValid r' := by rwa [split, character.isValid_append] at valid
  rcases character.ascii_or_high with ⟨a, low, rfl⟩ | ⟨some, high⟩
  · obtain ⟨rfl, rfl⟩ := List.cons_eq_cons.mp split
    have part := part_itself character (by simpa using Ne.symm escape)
    rw [quotedFrom_cons escape, if_neg mark] at right
    split at right
    case isTrue => cases right
    case isFalse feed =>
    split at right
    case isTrue => cases right
    case isFalse substitution =>
      refine ⟨[b], [b], [], _, rfl, List.cons_ne_nil _ _, part, validBehind, ?_⟩
      rw [quotedFrom_cons escape, if_neg mark, if_neg feed, if_neg substitution, following_right]
      rfl
  · have noBackslash : Byte.backslash ∉ w := fun mem => absurd (high _ mem) (by decide)
    rw [split]
    exact ⟨w, w, [], r', rfl, some, part_itself character noBackslash, validBehind,
      quotedFrom_high high⟩

/-- A literal without an error ends at its mark or goes on. -/
lemma goesOn_of_right (valid : Utf8.isValid text) (right : (quotedFrom q read text).errors = []) :
    (∃ r, text = q.mark :: r) ∨ GoesOn q read text := by
  cases text with
  | nil =>
    rw [quotedFrom] at right
    cases right
  | cons b rest =>
    by_cases mark : b = q.mark
    · exact .inl ⟨rest, congrArg (· :: rest) mark⟩
    refine .inr ?_
    by_cases escape : b = Byte.backslash
    · subst escape
      rw [quotedFrom_escape] at right
      obtain ⟨wrong, behind⟩ := List.append_eq_nil_iff.mp right
      have within : (Escape.read rest).size < rest.length := by
        by_contra long
        rw [List.drop_eq_nil_of_le (Nat.not_lt.mp long), quotedFrom] at behind
        cases behind
      rw [Utf8.isValid_ascii (by decide)] at valid
      exact goesOn_escape (by simpa using wrong) within valid
    · exact goesOn_itself escape mark valid right

/-- **The value of a literal is valid if the numbers of its escapes are.** -/
lemma quotedFrom_cooked (valid : Utf8.isValid text)
    (right : (quotedFrom q read text).errors = []) :
    ∃ body rest v, text = body ++ rest ∧
      quotedFrom q read text = ⟨q.kind, read + body.length, some v, []⟩ ∧
      Utf8.isValid v = (escapedNumbers body).all Utf8.hasEncoding := by
  induction hn : text.length using Nat.strongRecOn generalizing read text with
  | ind n ih =>
    subst hn
    rcases goesOn_of_right valid right with ⟨r, rfl⟩ | goesOn
    · exact ⟨[q.mark], r, [], rfl, quotedFrom_mark, rfl⟩
    · obtain ⟨w, v, numbers, r, rfl, some, part, validBehind, reads⟩ := goesOn
      have shorter : r.length < (w ++ r).length := by
        have := List.length_pos_iff.mpr some
        rw [List.length_append]
        omega
      rw [reads] at right ⊢
      obtain ⟨body, rest, u, split, readsBehind, same⟩ := ih _ shorter validBehind right rfl
      refine ⟨w ++ body, rest, v ++ u, ?_, ?_, ?_⟩
      · rw [split, List.append_assoc]
      · rw [readsBehind, List.length_append, ← Nat.add_assoc]
        rfl
      · rw [part.isValid_append, part.escapedNumbers_append, List.all_append, same]

/-! ### Kinds -/

/-- The kinds of quoted literals. -/
def quotedKinds : List TokenKind := [.string, .template]

/-- A string or a template is read from its opening mark. -/
lemma scan_quoted {previous : Option TokenKind} (h : (scan previous b r).kind ∈ quotedKinds) :
    ∃ q : Quote, b = q.mark ∧ scan previous b r = quotedFrom q 1 r := by
  have names : ∀ k ∈ quotedKinds, ¬ k.isName := by decide
  have signs : ∀ k ∈ TokenKind.punctuators, k ∉ quotedKinds := by decide
  have others : ∀ k ∈ ([.number, .regex, .error] : List TokenKind), k ∉ quotedKinds := by decide
  rcases scan_kinds previous b r with ⟨kind, -⟩ | ⟨q, -, mark, reads⟩ | ⟨kind, -⟩ | kind
  · exact absurd kind (names _ h)
  · exact ⟨q, mark, reads⟩
  · exact absurd h (signs _ kind)
  · exact absurd h (others _ kind)

end Lexeme

open Lexeme

namespace TokenList

variable {file : Bytes} {previous : Option TokenKind} {place : Place} {text : Bytes}

/-- A token with a value that is valid exactly if the numbers of its escapes can be encoded. -/
def CookedSoundly (t : Token) : Prop :=
  Utf8.isValid t.value = (escapedNumbers t.lexeme).all Utf8.hasEncoding

lemma nextToken_cooked {b : UInt8} {rest u : Bytes}
    (starts : text.drop (Gap.scan text).size = b :: rest) (valid : Utf8.isValid (u ++ text))
    (right : (Lexeme.scan previous b rest).errors = [])
    (kind : (Lexeme.scan previous b rest).kind ∈ quotedKinds) :
    CookedSoundly (nextToken file previous place text b rest) := by
  obtain ⟨q, rfl, scan⟩ := scan_quoted kind
  have mark : q.mark < 0x80 ∧ Byte.backslash ∉ [q.mark] := by cases q <;> decide
  have validRest : Utf8.isValid rest := by
    have split := List.take_append_drop (Gap.scan text).size text
    rw [starts] at split
    rw [← split, ← List.append_assoc] at valid
    have here := Utf8.isValid_of_append mark.1 valid
    rwa [Utf8.isValid_ascii mark.1] at here
  rw [scan] at right
  obtain ⟨body, more, v, rfl, reads, same⟩ := quotedFrom_cooked validRest right
  have bytes : (q.mark :: (body ++ more)).take (1 + body.length) = [q.mark] ++ body := by
    rw [Nat.add_comm, List.take_succ_cons, List.take_left]
    rfl
  unfold CookedSoundly nextToken tokenBytes
  simp only [scan, reads, Option.getD_some, bytes, escapedNumbers_append mark.2, same]

/-- **Each string or template of a valid text is cooked soundly**, if no error is found. -/
lemma scanFrom_cooked (file : Bytes) (previous : Option TokenKind) (place : Place)
    (text : Bytes) : ∀ u, Utf8.isValid (u ++ text) →
      (scanFrom file previous place text).faults = [] →
      ∀ t ∈ (scanFrom file previous place text).tokens, t.kind ∈ quotedKinds → CookedSoundly t := by
  refine scanFrom_induction (P := fun previous place text => ∀ u, Utf8.isValid (u ++ text) →
    (scanFrom file previous place text).faults = [] →
    ∀ t ∈ (scanFrom file previous place text).tokens, t.kind ∈ quotedKinds → CookedSoundly t)
    ?_ ?_ previous place text
  · intro previous place text h u _ _ t ht kind
    rw [scanFrom_end h, List.mem_singleton] at ht
    rw [ht] at kind
    exact absurd kind (by decide : TokenKind.eof ∉ quotedKinds)
  · intro previous place text b rest h behind u valid right t ht kind
    rw [scanFrom_token h] at right ht
    obtain ⟨here, rightBehind⟩ := List.append_eq_nil_iff.mp right
    have noErrors := List.map_eq_nil_iff.mp (List.append_eq_nil_iff.mp here).2
    rcases List.mem_cons.mp ht with rfl | ht
    · exact nextToken_cooked h valid noErrors kind
    · have split : text = text.take (Gap.scan text).size ++ b ::
          (rest.take ((Lexeme.scan previous b rest).size - 1) ++ tokenRest previous b rest) := by
        rw [tokenRest, List.take_append_drop, ← h, List.take_append_drop]
      refine behind (u ++ text.take (Gap.scan text).size ++
        b :: rest.take ((Lexeme.scan previous b rest).size - 1)) ?_ rightBehind t ht kind
      rw [split] at valid
      simpa using valid

end TokenList

/-- **Cooked values are UTF-8 as far as the escapes allow.** In a source in UTF-8 that is read
without an error, the value of a string or a template is valid if its escapes write scalar values,
and exactly if each number that they write has an encoding. -/
theorem Source.isValid_value {s : Source} (valid : Utf8.isValid s.content)
    (right : s.tokens.faults = []) {t : Token} (ht : t ∈ s.tokens.tokens)
    (kind : t.kind = .string ∨ t.kind = .template) :
    ((∀ n ∈ escapedNumbers t.lexeme, n.isValidChar) → Utf8.isValid t.value) ∧
      (Utf8.isValid t.value ↔ ∀ n ∈ escapedNumbers t.lexeme, Utf8.hasEncoding n) := by
  have quoted : t.kind ∈ quotedKinds := by simpa [quotedKinds] using kind
  have cooked := TokenList.scanFrom_cooked _ _ _ _ [] valid right t ht quoted
  have exactly : Utf8.isValid t.value ↔ ∀ n ∈ escapedNumbers t.lexeme, Utf8.hasEncoding n := by
    rw [cooked, List.all_eq_true]
  exact ⟨fun scalar => exactly.mpr fun n hn => Utf8.hasEncoding_of_isValidChar (scalar n hn),
    exactly⟩

theorem Source.isValid_value_emoji :
    Utf8.isValid (ascii "'\\u\x7b1f600\x7d'") ∧
      (Source.mk (ascii "a.js") (ascii "'\\u\x7b1f600\x7d'")).tokens.faults = [] ∧
      ⟨.string, ⟨ascii "a.js", ⟨1, 1, 0⟩, ⟨1, 12, 11⟩⟩, ascii "'\\u\x7b1f600\x7d'",
        [0xF0, 0x9F, 0x98, 0x80], false⟩ ∈
          (Source.mk (ascii "a.js") (ascii "'\\u\x7b1f600\x7d'")).tokens.tokens ∧
      escapedNumbers (ascii "'\\u\x7b1f600\x7d'") = [0x1F600] ∧
      Utf8.isValid [0xF0, 0x9F, 0x98, 0x80] := by
  have valid : Utf8.isValid (ascii "'\\u\x7b1f600\x7d'") := by decide +kernel
  have tokens : (Source.mk (ascii "a.js") (ascii "'\\u\x7b1f600\x7d'")).tokens =
      ⟨[⟨.string, ⟨ascii "a.js", ⟨1, 1, 0⟩, ⟨1, 12, 11⟩⟩, ascii "'\\u\x7b1f600\x7d'",
          [0xF0, 0x9F, 0x98, 0x80], false⟩,
        ⟨.eof, ⟨ascii "a.js", ⟨1, 12, 11⟩, ⟨1, 12, 11⟩⟩, [], [], false⟩], []⟩ := by
    decide +kernel
  have right := congrArg TokenList.faults tokens
  have ht : ⟨.string, ⟨ascii "a.js", ⟨1, 1, 0⟩, ⟨1, 12, 11⟩⟩, ascii "'\\u\x7b1f600\x7d'",
      [0xF0, 0x9F, 0x98, 0x80], false⟩ ∈
        (Source.mk (ascii "a.js") (ascii "'\\u\x7b1f600\x7d'")).tokens.tokens := by
    rw [tokens]
    exact List.mem_cons_self
  have numbers : escapedNumbers (ascii "'\\u\x7b1f600\x7d'") = [0x1F600] := by decide +kernel
  have scalar : ∀ n ∈ escapedNumbers (ascii "'\\u\x7b1f600\x7d'"), n.isValidChar := by
    rw [numbers]
    decide
  have value := @Source.isValid_value (Source.mk (ascii "a.js") (ascii "'\\u\x7b1f600\x7d'")) valid
    right _ ht (.inl rfl)
  exact ⟨valid, right, ht, numbers, value.1 scalar⟩

theorem Source.isValid_value_surrogates :
    Utf8.isValid (ascii "'\\ud83d\\ude00'") ∧
      (Source.mk (ascii "a.js") (ascii "'\\ud83d\\ude00'")).tokens.faults = [] ∧
      ((Source.mk (ascii "a.js") (ascii "'\\ud83d\\ude00'")).tokens.tokens.map
        fun t => (t.kind, Utf8.isValid t.value)) = [(.string, false), (.eof, true)] := by
  decide +kernel

end ModuleLint
