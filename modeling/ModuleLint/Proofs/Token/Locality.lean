import Mathlib.Tactic.Common
import ModuleLint.Proofs.Token.Reading

/-!
Tokens before a space.

A reader of lexemes looks a few bytes past the token. None of these bytes matters: if the token is
read without an error, the same bytes before a space are read as the same token. Each part of a
reader is cut at the end of the token, `w ++ r`, and what follows the cut is replaced.
-/

namespace ModuleLint.Lexeme

variable {w r r' : Bytes} {b : UInt8} {p : UInt8 → Bool} {n size read : Nat} {l : Lexeme}

/-- The text with a space and other bytes behind its first part. -/
abbrev spaced (w r : Bytes) : Bytes := w ++ Byte.space :: r

/-- A token of `n` bytes was read without an error. -/
structure Takes (l : Lexeme) (n : Nat) : Prop where
  size : l.size = n
  right : l.errors = []

lemma not_takes_wrong {error : LexicalError} : ¬ (wrong error size).Takes n :=
  fun h => List.cons_ne_nil _ _ h.right

lemma Takes.of_plain {kind : TokenKind} (h : (plain kind size).Takes n) : size = n := h.size

lemma not_headIs_space (hp : p Byte.space = false) : ¬ headIs p (Byte.space :: r) :=
  Bool.eq_false_iff.mp hp

lemma headIs_append (r r' : Bytes) (h : w ≠ []) : headIs p (w ++ r) = headIs p (w ++ r') := by
  cases w with
  | nil => exact absurd rfl h
  | cons b w => rfl

lemma drop_append_of_le (h : n ≤ w.length) : (w ++ r).drop n = w.drop n ++ r :=
  List.drop_append_of_le_length h

/-! ### Names -/

lemma space_ends_name : ¬ continuesName Byte.space := by decide

lemma nameRun_spaced (h : nameRun (w ++ r) = w.length) : nameRun (spaced w r') = w.length := by
  have whole : ∀ b ∈ w, continuesName b := by
    induction w with
    | nil => exact fun _ hb => absurd hb List.not_mem_nil
    | cons b w ih =>
      rw [nameRun, List.cons_append, List.takeWhile_cons] at h
      split at h
      case isTrue hb =>
        rw [List.length_cons, List.length_cons, Nat.add_right_cancel_iff] at h
        exact List.forall_mem_cons.mpr ⟨hb, ih h⟩
      case isFalse => cases h
  unfold nameRun spaced
  rw [List.takeWhile_append_of_pos whole, List.takeWhile_cons_of_neg space_ends_name,
    List.append_nil]

lemma name_spaced (h : (name (w ++ r)).Takes w.length) : name (spaced w r') = name (w ++ r) := by
  have run : nameRun (w ++ r) = w.length := h.size
  have run' : nameRun (spaced w r') = w.length := nameRun_spaced run
  unfold name
  dsimp only
  rw [run, run', List.take_left, List.take_left]

/-! ### Punctuators -/

lemma space_not_mem_punctuator : ∀ k ∈ TokenKind.punctuators, Byte.space ∉ k.text := by decide

/-- No punctuator reaches past a space. -/
lemma prefix_of_spaced {kind : TokenKind} (hk : kind ∈ TokenKind.punctuators)
    (h : kind.text <+: spaced w r') : kind.text <+: w := by
  have first : w <+: spaced w r' := List.prefix_append _ _
  rcases Nat.lt_or_ge w.length kind.text.length with long | short
  · refine absurd ?_ (space_not_mem_punctuator kind hk)
    have more : w ++ [Byte.space] <+: spaced w r' := ⟨r', by simp⟩
    have cut := List.prefix_of_prefix_length_le more h (by rw [List.length_append]; exact long)
    exact cut.subset (by simp)
  · exact List.prefix_of_prefix_length_le h first short

lemma punctuator_spaced (h : (punctuator b (w ++ r)).Takes (w.length + 1)) :
    punctuator b (spaced w r') = punctuator b (w ++ r) := by
  obtain ⟨k, longest, reads⟩ | failed := punctuator_cases b (w ++ r)
  · rw [reads] at h ⊢
    have all : k.text = b :: w := by
      have cut : b :: w <+: b :: (w ++ r) := List.prefix_append (b :: w) r
      have size : k.text.length = (b :: w).length := h.size
      have starts := List.prefix_of_prefix_length_le longest.starts cut (Nat.le_of_eq size)
      exact starts.eq_of_length size
    have again : LongestHead k (b :: spaced w r') := by
      refine ⟨longest.member, ⟨Byte.space :: r', all ▸ rfl⟩, fun l member starts => ?_⟩
      have cut : l.text <+: b :: w := prefix_of_spaced member starts
      exact all ▸ cut.length_le
    exact again.reads
  · rw [failed] at h
    exact absurd h not_takes_wrong

/-! ### Numbers -/

lemma spaced_cons : spaced (b :: w) r = b :: spaced w r := rfl

lemma digitRun_cons : digitRun p (b :: r) =
    if p b || (b == byte '_' && headIs p r) then digitRun p r + 1 else 0 := rfl

/-- A run of digits that ends before a cut ends there before a space, too. -/
lemma digitRun_spaced (hp : p Byte.space = false) (h : digitRun p (w ++ r) ≤ w.length) :
    digitRun p (spaced w r') = digitRun p (w ++ r) := by
  induction w with
  | nil =>
    have none : digitRun p (Byte.space :: r') = 0 := by
      rw [digitRun_cons, hp]
      rfl
    exact none.trans (Nat.le_zero.mp h).symm
  | cons b w ih =>
    rw [List.cons_append, digitRun_cons, List.length_cons] at h
    have same : (p b || (b == byte '_' && headIs p (spaced w r'))) =
        (p b || (b == byte '_' && headIs p (w ++ r))) := by
      cases w with
      | cons c w => rfl
      | nil =>
        have behind : headIs p (spaced [] r') = false := hp
        rw [behind, Bool.and_false, Bool.or_false]
        cases digit : p b || (b == byte '_' && headIs p ([] ++ r)) with
        | false => exact (Bool.or_eq_false_iff.mp digit).1
        | true =>
          -- an underscore before a digit would reach over the cut
          rw [digit, if_pos rfl, List.nil_append, List.length_nil] at h
          rcases Bool.or_eq_true_iff.mp digit with digit | digit
          · exact digit
          · cases r with
            | nil => exact absurd (Bool.and_eq_true_iff.mp digit).2 Bool.false_ne_true
            | cons c r =>
              have second : 0 < digitRun p (c :: r) :=
                digitRun_pos (Bool.and_eq_true_iff.mp digit).2
              omega
    rw [spaced_cons, digitRun_cons, List.cons_append, digitRun_cons, same]
    split
    case isTrue taken =>
      rw [if_pos taken] at h
      rw [ih (by omega)]
    case isFalse => rfl

lemma fractionRun_cons : fractionRun (b :: r) =
    if b = Byte.dot ∧ ¬ headIs (· == Byte.dot) r then digitRun Byte.isDigit r + 1 else 0 := rfl

/-- A fraction that ends before a cut ends there before a space, too, unless the cut takes away the
second of two dots. -/
lemma fractionRun_spaced (h : fractionRun (w ++ r) ≤ w.length)
    (two : w = [Byte.dot] → fractionRun (w ++ r) ≠ 0) :
    fractionRun (spaced w r') = fractionRun (w ++ r) := by
  cases w with
  | nil =>
    have none : fractionRun (Byte.space :: r') = 0 := by
      rw [fractionRun_cons]
      exact if_neg (not_and_of_not_left _ (by decide))
    exact none.trans (Nat.le_zero.mp h).symm
  | cons b w =>
    rw [List.cons_append, fractionRun_cons, List.length_cons] at h
    rw [List.cons_append, fractionRun_cons] at two
    have dots : (b = Byte.dot ∧ ¬ headIs (· == Byte.dot) (spaced w r')) ↔
        (b = Byte.dot ∧ ¬ headIs (· == Byte.dot) (w ++ r)) := by
      refine and_congr_right fun dot => ?_
      cases w with
      | cons c w => exact Iff.rfl
      | nil =>
        refine ⟨fun _ second => two (by rw [dot]) (if_neg fun one => one.2 second), fun _ => ?_⟩
        exact fun second => absurd (beq_iff_eq.mp second) (by decide)
    rw [spaced_cons, fractionRun_cons, List.cons_append, fractionRun_cons]
    simp only [dots]
    split
    case isTrue taken =>
      rw [if_pos taken] at h
      have digits : digitRun Byte.isDigit (w ++ r) ≤ w.length := by omega
      rw [digitRun_spaced rfl digits]
    case isFalse => rfl

/-- The size of the sign of an exponent. -/
def signRun (text : Bytes) : Nat :=
  if headIs (fun b => b == byte '+' || b == byte '-') text then 1 else 0

lemma exponentRun_cons : exponentRun (b :: r) =
    if (b = byte 'e' ∨ b = byte 'E') ∧ headIs Byte.isDigit (r.drop (signRun r)) then
      digitRun Byte.isDigit (r.drop (signRun r)) + signRun r + 1
    else 0 := rfl

lemma digitRun_pos_of_headIs (h : headIs p r) : 0 < digitRun p r := by
  cases r with
  | nil => cases h
  | cons b r => exact digitRun_pos h

lemma exponentRun_spaced (h : exponentRun (w ++ r) ≤ w.length) :
    exponentRun (spaced w r') = exponentRun (w ++ r) := by
  cases w with
  | nil =>
    have none : exponentRun (Byte.space :: r') = 0 := by
      rw [exponentRun_cons]
      exact if_neg (not_and_of_not_left _ (by decide))
    exact none.trans (Nat.le_zero.mp h).symm
  | cons b w =>
    rw [List.cons_append, exponentRun_cons, List.length_cons] at h
    rw [spaced_cons, exponentRun_cons, List.cons_append, exponentRun_cons]
    split at h
    case isTrue taken =>
      have digits := digitRun_pos_of_headIs taken.2
      have sign : signRun (spaced w r') = signRun (w ++ r) :=
        congrArg (if · then 1 else 0) (headIs_append _ _ (List.length_pos_iff.mp (by omega)))
      have within : signRun (w ++ r) ≤ w.length := by omega
      rw [drop_append_of_le within] at h digits taken
      have some : w.drop (signRun (w ++ r)) ≠ [] := by
        rw [ne_eq, List.drop_eq_nil_iff]
        omega
      have short : digitRun Byte.isDigit (w.drop (signRun (w ++ r)) ++ r) ≤
          (w.drop (signRun (w ++ r))).length := by
        rw [List.length_drop]
        omega
      rw [sign, drop_append_of_le within, drop_append_of_le within,
        headIs_append (Byte.space :: r') r some, digitRun_spaced rfl short]
    case isFalse none =>
      rw [if_neg none]
      refine if_neg fun taken => none ⟨taken.1, ?_⟩
      have digit := taken.2
      cases w with
      | nil => cases digit
      | cons c w =>
        have sign : signRun (spaced (c :: w) r') = signRun (c :: w ++ r) := rfl
        rw [sign] at digit
        unfold signRun at digit ⊢
        split at digit
        case isFalse unsigned =>
          rw [if_neg unsigned]
          exact digit
        case isTrue signed =>
          rw [if_pos signed]
          cases w with
          | nil => cases digit
          | cons d w => exact digit

lemma exponentRun_dot : exponentRun (Byte.dot :: r) = 0 := by
  rw [exponentRun_cons]
  exact if_neg (not_and_of_not_left _ (by decide))

/-- The size of the digits and the fraction of a number. -/
def fractionEnd (text : Bytes) : Nat :=
  digitRun Byte.isDigit text + fractionRun (text.drop (digitRun Byte.isDigit text))

lemma decimalRun_eq (text : Bytes) :
    decimalRun text = fractionEnd text + exponentRun (text.drop (fractionEnd text)) := rfl

/-- A number in decimal notation that ends before a cut ends there before a space, too, unless the
cut stands between two dots behind it. -/
lemma decimalRun_spaced (h : decimalRun (w ++ r) ≤ w.length)
    (two : w.drop (decimalRun (w ++ r)) ≠ [Byte.dot]) :
    decimalRun (spaced w r') = decimalRun (w ++ r) := by
  have within : fractionEnd (w ++ r) ≤ w.length := Nat.le_trans (Nat.le_add_right _ _) h
  have digits : digitRun Byte.isDigit (w ++ r) ≤ w.length :=
    Nat.le_trans (Nat.le_add_right _ _) within
  have whole : digitRun Byte.isDigit (spaced w r') = digitRun Byte.isDigit (w ++ r) :=
    digitRun_spaced rfl digits
  have fraction : fractionEnd (spaced w r') = fractionEnd (w ++ r) := by
    unfold fractionEnd at within ⊢
    rw [drop_append_of_le digits] at within
    rw [whole, drop_append_of_le digits, drop_append_of_le digits]
    refine congrArg (_ + ·) (fractionRun_spaced ?_ fun dot none => ?_)
    · rw [List.length_drop]
      omega
    · -- nothing is read of a dot before a dot, so the number ends before it
      have here : decimalRun (w ++ r) = digitRun Byte.isDigit (w ++ r) := by
        have ends : fractionEnd (w ++ r) = digitRun Byte.isDigit (w ++ r) := by
          rw [fractionEnd, drop_append_of_le digits, none, Nat.add_zero]
        rw [decimalRun_eq, ends, drop_append_of_le digits, dot, List.singleton_append,
          exponentRun_dot, Nat.add_zero]
      rw [here] at two
      exact two dot
  rw [decimalRun_eq, decimalRun_eq, fraction, drop_append_of_le within, drop_append_of_le within]
  rw [decimalRun_eq, drop_append_of_le within] at h
  refine congrArg (_ + ·) (exponentRun_spaced ?_)
  rw [List.length_drop]
  omega

/-- The size of a number whose digits are the first `size` bytes of a text. -/
def suffixed (text : Bytes) (size : Nat) : Nat :=
  if headIs (· == byte 'n') (text.drop size) then size + 1 else size

lemma numberOfSize_eq (text : Bytes) (size : Nat) : numberOfSize text size =
    if headIs startsName (text.drop (suffixed text size)) then
      wrong .nameAfterNumber (suffixed text size + nameRun (text.drop (suffixed text size)))
    else plain .number (suffixed text size) := rfl

lemma numberOfSize_takes (h : (numberOfSize r size).Takes n) :
    numberOfSize r size = plain .number n ∧ suffixed r size = n := by
  rw [numberOfSize_eq] at h ⊢
  split at h
  case isTrue => exact absurd h not_takes_wrong
  case isFalse none =>
    rw [if_neg none, h.of_plain]
    exact ⟨rfl, rfl⟩

/-- A number whose digits end before a cut ends at it before a space, too. -/
lemma numberOfSize_spaced (within : size ≤ w.length)
    (h : (numberOfSize (w ++ r) size).Takes w.length) :
    numberOfSize (spaced w r') size = numberOfSize (w ++ r) size ∧ w.drop size ≠ [Byte.dot] := by
  obtain ⟨number, ends⟩ := numberOfSize_takes h
  have ends' : suffixed (spaced w r') size = w.length ∧ w.drop size ≠ [Byte.dot] := by
    unfold suffixed at ends ⊢
    rw [drop_append_of_le within] at ends ⊢
    have length := @List.length_drop _ size w
    cases rest : w.drop size with
    | nil =>
      rw [rest, List.length_nil] at length
      exact ⟨(if_neg (not_headIs_space rfl)).trans (by omega), nofun⟩
    | cons c more =>
      rw [rest, List.length_cons] at length
      rw [rest] at ends
      split at ends
      case isFalse => omega
      case isTrue suffix =>
        have last : more = [] := List.length_eq_zero_iff.mp (by omega)
        have n : c = byte 'n' := beq_iff_eq.mp suffix
        subst last n
        exact ⟨(if_pos rfl).trans ends, by decide⟩
  rw [number, numberOfSize_eq, ends'.1, List.drop_left]
  exact ⟨if_neg (not_headIs_space rfl), ends'.2⟩

lemma radix?_append (h : 2 ≤ w.length) : radix? (w ++ r) = radix? (w ++ r') := by
  obtain ⟨a, b, w, rfl⟩ : ∃ a b more, w = a :: b :: more := by
    match w with
    | a :: b :: more => exact ⟨a, b, more, rfl⟩
  rfl

lemma radix?_space : radix? (b :: Byte.space :: r) = none := by
  have letters : Byte.space ≠ byte 'x' ∧ Byte.space ≠ byte 'X' ∧ Byte.space ≠ byte 'o' ∧
      Byte.space ≠ byte 'O' ∧ Byte.space ≠ byte 'b' ∧ Byte.space ≠ byte 'B' := by decide
  simp [radix?, letters]

lemma space_not_radix_digit (h : radix? r = some p) : p Byte.space = false := by
  unfold radix? at h
  split at h
  case h_2 => cases h
  case h_1 =>
    split_ifs at h <;> cases h <;> rfl

lemma number_of_radix (h : radix? r = some p) : number r =
    if headIs p (r.drop 2) then numberOfSize r (2 + digitRun p (r.drop 2))
    else wrong .missingDigits 2 := by
  rw [number, h]

lemma number_of_decimal (h : radix? r = none) : number r = numberOfSize r (decimalRun r) := by
  rw [number, h]

lemma size_le_numberOfSize : size ≤ (numberOfSize r size).size := by
  have within : size ≤ suffixed r size := by
    unfold suffixed
    split
    · exact Nat.le_succ size
    · exact Nat.le_refl size
  rw [numberOfSize_eq]
  split
  · exact Nat.le_trans within (Nat.le_add_right _ _)
  · exact within

lemma number_spaced (h : (number (w ++ r)).Takes w.length) (nonempty : w ≠ []) :
    number (spaced w r') = number (w ++ r) := by
  cases radix : radix? (w ++ r) with
  | none =>
    have radix' : radix? (spaced w r') = none := by
      rcases Nat.lt_or_ge w.length 2 with short | long
      · obtain ⟨b, rfl⟩ : ∃ b, w = [b] := by
          refine List.length_eq_one_iff.mp ?_
          have := List.length_pos_iff.mpr nonempty
          omega
        exact radix?_space
      · rw [← radix]
        exact radix?_append long
    rw [number_of_decimal radix] at h ⊢
    rw [number_of_decimal radix']
    have within : decimalRun (w ++ r) ≤ w.length := h.size ▸ size_le_numberOfSize
    obtain ⟨same, two⟩ := @numberOfSize_spaced _ _ r' _ within h
    rw [decimalRun_spaced within two, same]
  | some p =>
    rw [number_of_radix radix] at h ⊢
    split at h
    case isFalse => exact absurd h not_takes_wrong
    case isTrue first =>
      have within : 2 + digitRun p ((w ++ r).drop 2) ≤ w.length := h.size ▸ size_le_numberOfSize
      have long : 2 ≤ w.length := by omega
      have radix' : radix? (spaced w r') = some p := radix ▸ radix?_append long
      have digits := digitRun_pos_of_headIs first
      rw [drop_append_of_le long] at within digits first
      have inside : w.drop 2 ≠ [] := by
        rw [ne_eq, List.drop_eq_nil_iff]
        omega
      have run : digitRun p (spaced (w.drop 2) r') = digitRun p (w.drop 2 ++ r) :=
        digitRun_spaced (space_not_radix_digit radix) (by rw [List.length_drop]; omega)
      rw [number_of_radix radix', drop_append_of_le long, drop_append_of_le long, run,
        headIs_append (Byte.space :: r') r inside, if_pos first, if_pos first]
      rw [drop_append_of_le long] at h
      exact (numberOfSize_spaced within h).1

/-! ### Regular expressions -/

section Regex

variable {inClass : Bool} {c : UInt8}

lemma regexFrom_escape : regexFrom read inClass (Byte.backslash :: c :: r) =
    if c = Byte.lineFeed then wrong .unterminatedRegex (read + 1)
    else regexFrom (read + 2) inClass r := by
  rw [regexFrom.eq_3, if_neg (by decide), if_pos rfl]

/-- How a regular expression goes on after a byte that is no backslash. -/
lemma regexFrom_cons (h : b ≠ Byte.backslash) : regexFrom read inClass (b :: r) =
    if b = Byte.lineFeed then wrong .unterminatedRegex read
    else if b = Byte.openBracket then regexFrom (read + 1) true r
    else if b = Byte.closeBracket then regexFrom (read + 1) false r
    else if b = Byte.slash ∧ ¬ inClass then plain .regex (read + 1 + nameRun r)
    else regexFrom (read + 1) inClass r := by
  rw [regexFrom.eq_def]
  dsimp only
  rw [if_neg h]

/-- A regular expression that is read reaches past what was read before. -/
lemma not_takes_regexFrom (h : n ≤ read) : ¬ (regexFrom read inClass r).Takes n := by
  intro takes
  fun_induction regexFrom read inClass r
  case case1 | case2 | case3 | case4 => exact not_takes_wrong takes
  case case5 ih | case6 ih | case7 ih | case9 ih => exact ih (by omega) takes
  case case8 =>
    have size := takes.of_plain
    omega

lemma regexFrom_spaced (h : (regexFrom read inClass (w ++ r)).Takes n)
    (hn : n = read + w.length) :
    regexFrom read inClass (spaced w r') = regexFrom read inClass (w ++ r) := by
  fun_induction regexFrom read inClass w
  case case1 => exact absurd h (not_takes_regexFrom (Nat.le_of_eq hn))
  case case2 =>
    rw [List.cons_append, regexFrom_cons (by decide), if_pos rfl] at h
    exact absurd h not_takes_wrong
  case case3 =>
    -- the byte behind the backslash is behind the cut
    refine absurd h ?_
    cases r with
    | nil => exact not_takes_wrong
    | cons c r =>
      rw [List.cons_append, List.nil_append, regexFrom_escape]
      split
      · exact not_takes_wrong
      · exact not_takes_regexFrom (Nat.le_succ_of_le (Nat.le_of_eq hn))
  case case4 =>
    rw [List.cons_append, List.cons_append, regexFrom_escape, if_pos rfl] at h
    exact absurd h not_takes_wrong
  case case5 c rest noFeed _ ih =>
    rw [List.cons_append, List.cons_append, regexFrom_escape, if_neg noFeed] at h ⊢
    rw [spaced_cons, spaced_cons, regexFrom_escape, if_neg noFeed]
    exact ih h (by rw [hn, List.length_cons, List.length_cons]; omega)
  case case6 ih | case7 ih =>
    rw [List.cons_append, regexFrom_cons (by decide)] at h ⊢
    rw [spaced_cons, regexFrom_cons (by decide)]
    exact ih h (by rw [hn, List.length_cons]; omega)
  case case8 b rest noFeed noEscape noOpen noClose ends =>
    rw [List.cons_append, regexFrom_cons noEscape, if_neg noFeed, if_neg noOpen, if_neg noClose,
      if_pos ends] at h ⊢
    rw [spaced_cons, regexFrom_cons noEscape, if_neg noFeed, if_neg noOpen, if_neg noClose,
      if_pos ends]
    have flags : nameRun (rest ++ r) = rest.length := by
      have size := h.of_plain
      rw [hn, List.length_cons] at size
      omega
    rw [flags, nameRun_spaced flags]
  case case9 b rest noFeed noEscape noOpen noClose goesOn ih =>
    rw [List.cons_append, regexFrom_cons noEscape, if_neg noFeed, if_neg noOpen, if_neg noClose,
      if_neg goesOn] at h ⊢
    rw [spaced_cons, regexFrom_cons noEscape, if_neg noFeed, if_neg noOpen, if_neg noClose,
      if_neg goesOn]
    exact ih h (by rw [hn, List.length_cons]; omega)

end Regex

/-! ### Escapes -/

namespace Escape

variable {value missing room : Nat}

lemma hex_size (h : (hex r).error = none) : (hex r).size = 3 := by
  match r with
  | [] | [_] => cases h
  | a :: b :: rest =>
    unfold hex at h ⊢
    dsimp only at h ⊢
    split at h
    · rfl
    · cases h

lemma hex_pos : 0 < (hex r).size := by
  unfold hex
  split
  · split
    · exact Nat.succ_pos 2
    · exact Nat.one_pos
  · exact Nat.one_pos

lemma hex_local (h : 2 ≤ w.length) : hex (w ++ r') = hex (w ++ r) := by
  match w with
  | a :: b :: w => rfl

lemma fixed_size (h : (fixed read value missing r).error = none) :
    (fixed read value missing r).size = read + missing := by
  fun_induction fixed read value missing r
  case case1 => rfl
  case case2 ih =>
    rw [ih h]
    omega
  case case3 => cases h

lemma fixed_local (h : missing ≤ w.length) :
    fixed read value missing (w ++ r') = fixed read value missing (w ++ r) := by
  induction missing generalizing read value w with
  | zero => rfl
  | succ missing ih =>
    cases w with
    | nil => cases h
    | cons b w =>
      unfold fixed
      rw [List.cons_append, List.cons_append, List.head?_cons, List.head?_cons, List.tail_cons,
        List.tail_cons]
      split
      case h_1 => exact ih (Nat.le_of_succ_le_succ h)
      case h_2 => rfl

lemma read_le_braced : read ≤ (braced read value room r).size := by
  fun_induction braced read value room r
  case case1 => exact Nat.le_refl _
  case case2 | case4 => exact Nat.le_succ _
  case case3 ih => exact Nat.le_of_succ_le ih

lemma braced_local (h : (braced read value room (w ++ r)).size < read + w.length) :
    braced read value room (w ++ r') = braced read value room (w ++ r) := by
  induction w generalizing read value room with
  | nil => exact absurd h (Nat.not_lt.mpr read_le_braced)
  | cons b w ih =>
    rw [List.cons_append, braced.eq_def] at h ⊢
    rw [List.cons_append, braced.eq_def]
    dsimp only at h ⊢
    split
    case isTrue => rfl
    case isFalse open_ =>
      rw [if_neg open_] at h
      split
      case h_1 d room digit =>
        refine ih ?_
        rw [digit] at h
        rw [List.length_cons] at h
        exact Nat.lt_of_lt_of_eq h (by omega)
      case h_2 => rfl

lemma fixed_le_size : read ≤ (fixed read value missing r).size := by
  fun_induction fixed read value missing r
  case case1 | case3 => exact Nat.le_refl _
  case case2 ih => exact Nat.le_of_succ_le ih

lemma read_pos : 0 < (Escape.read (b :: r)).size := by
  unfold Escape.read
  dsimp only
  split_ifs
  · exact Nat.one_pos
  · exact Nat.two_pos
  · exact Nat.one_pos
  · exact hex_pos
  · exact Nat.lt_of_lt_of_le Nat.two_pos read_le_braced
  · exact Nat.lt_of_lt_of_le Nat.one_pos fixed_le_size
  · exact Nat.one_pos

/-- A right escape that ends before a cut does not depend on what is behind the cut. -/
lemma read_local (right : (Escape.read (w ++ r)).error = none)
    (within : (Escape.read (w ++ r)).size < w.length) :
    Escape.read (w ++ r') = Escape.read (w ++ r) := by
  cases w with
  | nil => exact absurd within (Nat.not_lt_zero _)
  | cons b w =>
    rw [List.length_cons] at within
    have positive : 0 < w.length := by
      have some : 0 < (Escape.read (b :: (w ++ r))).size := read_pos
      rw [List.cons_append] at within
      omega
    have nonempty : w ≠ [] := List.length_pos_iff.mp positive
    have tail (r : Bytes) : (w ++ r).tail = w.tail ++ r := List.tail_append_of_ne_nil nonempty
    have length := List.length_tail (l := w)
    rw [List.cons_append] at right within ⊢
    unfold Escape.read at right within ⊢
    rw [List.cons_append]
    dsimp only at right within ⊢
    rw [headIs_append r' r nonempty, headIs_append r' r nonempty]
    split_ifs at right within ⊢
    · rfl
    · rfl
    · rfl
    · have size := hex_size right
      exact hex_local (by omega)
    · rw [tail] at within ⊢
      rw [tail]
      have ends : w.length + 1 = 2 + w.tail.length := by omega
      exact braced_local (ends ▸ within)
    · have size := fixed_size right
      exact fixed_local (by omega)
    · rfl

end Escape

/-! ### Quoted literals -/

section Quoted

variable {q : Quote} {e : Escape}

lemma Takes.of_following (h : (following e size l).Takes n) : e.error = none ∧ l.Takes n := by
  have right := List.append_eq_nil_iff.mp h.right
  refine ⟨?_, h.size, right.2⟩
  cases he : e.error with
  | none => rfl
  | some error =>
    rw [he] at right
    cases right.1

lemma not_takes_quotedFrom (h : n ≤ read) : ¬ (quotedFrom q read r).Takes n := by
  intro takes
  fun_induction quotedFrom q read r
  case case1 | case3 | case5 => exact not_takes_wrong takes
  case case2 =>
    have size : _ + 1 = n := takes.size
    omega
  case case4 ih => exact ih (by omega) takes.of_following.2
  case case6 ih => exact ih (by omega) takes.of_following.2

lemma quotedFrom_escape : quotedFrom q read (Byte.backslash :: r) =
    following (Escape.read r) (read + 1 + (Escape.read r).size)
      (quotedFrom q (read + 1 + (Escape.read r).size) (r.drop (Escape.read r).size)) := by
  have noMark : ¬ Byte.backslash = q.mark := by cases q <;> decide
  have noFeed : ¬ (q ≠ .template ∧ Byte.backslash = Byte.lineFeed) :=
    not_and_of_not_right _ (by decide)
  rw [quotedFrom, if_neg noMark, if_neg noFeed, if_pos rfl]

/-- How a quoted literal goes on after a byte that is no backslash. -/
lemma quotedFrom_cons (h : b ≠ Byte.backslash) : quotedFrom q read (b :: r) =
    if b = q.mark then ⟨q.kind, read + 1, some [], []⟩
    else if q ≠ .template ∧ b = Byte.lineFeed then wrong q.unterminated read
    else if q = .template ∧ b = Byte.dollar ∧ headIs (· == Byte.openBrace) r then
      wrong .templateSubstitution
        (read + 1 + (r.take ((r.takeWhile (· != q.mark)).length + 1)).length)
    else following (.right 1 [b]) (read + 1) (quotedFrom q (read + 1) r) := by
  rw [quotedFrom, if_neg h]

lemma quotedFrom_local (h : (quotedFrom q read (w ++ r)).Takes n) (hn : n = read + w.length) :
    quotedFrom q read (w ++ r') = quotedFrom q read (w ++ r) := by
  induction hl : w.length using Nat.strongRecOn generalizing read w with
  | ind length ih =>
    subst hl
    cases w with
    | nil => exact absurd h (not_takes_quotedFrom (Nat.le_of_eq hn))
    | cons b w =>
      rw [List.length_cons] at hn ih
      rw [List.cons_append] at h ⊢
      rw [List.cons_append]
      by_cases escape : b = Byte.backslash
      · subst escape
        rw [quotedFrom_escape] at h ⊢
        rw [quotedFrom_escape]
        obtain ⟨right, takes⟩ := h.of_following
        have within : (Escape.read (w ++ r)).size < w.length := by
          by_contra long
          exact not_takes_quotedFrom (by omega) takes
        have inside := Nat.le_of_lt within
        rw [drop_append_of_le inside] at takes ⊢
        have behind := ih _ (by rw [List.length_drop]; omega) takes
          (by rw [List.length_drop]; omega) rfl
        rw [Escape.read_local right within, drop_append_of_le inside, behind]
      · rw [quotedFrom_cons escape] at h ⊢
        rw [quotedFrom_cons escape]
        split at h
        case isTrue mark => rw [if_pos mark, if_pos mark]
        case isFalse mark =>
        split at h
        case isTrue => exact absurd h not_takes_wrong
        case isFalse feed =>
        split at h
        case isTrue => exact absurd h not_takes_wrong
        case isFalse substitution =>
          have takes := h.of_following.2
          have nonempty : w ≠ [] := by
            rintro rfl
            exact not_takes_quotedFrom (Nat.le_of_eq hn) takes
          rw [if_neg mark, if_neg feed, if_neg mark, if_neg feed, if_neg substitution,
            headIs_append r' r nonempty, if_neg substitution,
            ih _ (Nat.lt_succ_self _) takes (by omega) rfl]

end Quoted

/-! ### Tokens -/

/-- A dot before a digit is not read alone. -/
lemma two_le_number_dot (h : headIs Byte.isDigit r) : 2 ≤ (number (Byte.dot :: r)).size := by
  have radix : radix? (Byte.dot :: r) = none := by
    cases r with
    | nil => rfl
    | cons c r =>
      have notZero : Byte.dot ≠ byte '0' := by decide
      rw [radix?, if_pos notZero]
  have oneDot : ¬ headIs (· == Byte.dot) r := by
    cases r with
    | nil => nofun
    | cons c r =>
      intro dot
      rw [show c = Byte.dot from beq_iff_eq.mp dot] at h
      exact not_digit_dot h
  have whole : digitRun Byte.isDigit (Byte.dot :: r) = 0 := if_neg Bool.false_ne_true
  have digits := digitRun_pos_of_headIs h
  have fraction : fractionEnd (Byte.dot :: r) = digitRun Byte.isDigit r + 1 := by
    rw [fractionEnd, whole, List.drop_zero, fractionRun_cons, if_pos ⟨rfl, oneDot⟩, Nat.zero_add]
  rw [number_of_decimal radix]
  refine Nat.le_trans ?_ size_le_numberOfSize
  rw [decimalRun_eq]
  omega

/-- **A token does not depend on the bytes behind it.** If it is read without an error, the same
bytes before a space are read as the same token. -/
theorem scan_spaced (previous : Option TokenKind) (r' : Bytes)
    (h : (scan previous b (w ++ r)).Takes (w.length + 1)) :
    scan previous b (spaced w r') = scan previous b (w ++ r) := by
  unfold scan at h ⊢
  split at h
  case isTrue starts =>
    rw [if_pos starts, if_pos starts]
    exact name_spaced (w := b :: w) h
  case isFalse starts =>
  rw [if_neg starts, if_neg starts]
  have dot : (b == Byte.dot && headIs Byte.isDigit (spaced w r')) =
      (b == Byte.dot && headIs Byte.isDigit (w ++ r)) := by
    cases w with
    | cons c w => rfl
    | nil =>
      have noDigit : headIs Byte.isDigit (spaced [] r') = false := rfl
      rw [noDigit, Bool.and_false]
      refine (Bool.eq_false_iff.mpr fun taken => ?_).symm
      rw [taken, Bool.or_true, if_pos rfl] at h
      obtain ⟨dot, digit⟩ := Bool.and_eq_true_iff.mp taken
      rw [show b = Byte.dot from beq_iff_eq.mp dot] at h
      have size : (number (Byte.dot :: r)).size = 1 := h.size
      have two : 2 ≤ (number (Byte.dot :: r)).size := two_le_number_dot digit
      omega
  rw [dot]
  split at h
  case isTrue digit =>
    rw [if_pos digit, if_pos digit]
    exact number_spaced (w := b :: w) h (List.cons_ne_nil _ _)
  case isFalse digit =>
  rw [if_neg digit, if_neg digit]
  split at h
  case h_1 q _ => exact quotedFrom_local h (Nat.add_comm _ _)
  case h_2 =>
  split at h
  case isTrue slash =>
    rw [if_pos slash, if_pos slash]
    exact regexFrom_spaced h (Nat.add_comm _ _)
  case isFalse slash =>
    rw [if_neg slash, if_neg slash]
    exact punctuator_spaced h

end ModuleLint.Lexeme
