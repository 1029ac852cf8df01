import Mathlib.Tactic.Common
import ModuleLint.Proofs.Token.Tables
import ModuleLint.Token.List

/-!
What every reading of a token has in common.

Each reader of lexemes takes at least a byte and never yields the end of the text. When it fails, an
error is recorded over all that it took.
-/

namespace ModuleLint.Lexeme

variable {text rest : Bytes} {b : UInt8}

structure Sound (l : Lexeme) : Prop where
  size : 0 < l.size
  kind : l.kind ≠ .eof
  error : l.kind = .error → ∃ e, (e, l.size) ∈ l.errors

lemma sound_plain {kind : TokenKind} {size : Nat} (hk : kind ≠ .eof ∧ kind ≠ .error)
    (hs : 0 < size) : (plain kind size).Sound := ⟨hs, hk.1, fun h => absurd h hk.2⟩

lemma sound_wrong (error : LexicalError) {size : Nat} (hs : 0 < size) : (wrong error size).Sound :=
  ⟨hs, nofun, fun _ => ⟨error, List.mem_singleton_self _⟩⟩

lemma Sound.following {l : Lexeme} (h : l.Sound) (e : Escape) (size : Nat) :
    (following e size l).Sound := by
  refine ⟨h.size, h.kind, fun hk => ?_⟩
  obtain ⟨error, he⟩ := h.error hk
  exact ⟨error, List.mem_append_right _ he⟩

/-! ### Names and punctuators -/

lemma nameRun_pos (h : startsName b) : 0 < nameRun (b :: rest) := by
  have continues : continuesName b := by
    rw [continuesName, h]
    rfl
  rw [nameRun, List.takeWhile_cons_of_pos continues, List.length_cons]
  omega

lemma name_sound (h : startsName b) : (name (b :: rest)).Sound := by
  refine sound_plain ?_ (nameRun_pos h)
  cases hk : TokenKind.keyword? ((b :: rest).take (nameRun (b :: rest))) with
  | none => exact ⟨nofun, nofun⟩
  | some kind =>
    have keywords : ∀ k ∈ TokenKind.keywords, k ≠ .eof ∧ k ≠ .error := by decide
    exact keywords kind (TokenKind.mem_keywords hk)

lemma punctuator_sound (b : UInt8) (rest : Bytes) : (punctuator b rest).Sound := by
  obtain ⟨k, longest, reads⟩ | failed := punctuator_cases b rest
  · have kinds : ∀ k ∈ TokenKind.punctuators, (k ≠ .eof ∧ k ≠ .error) ∧ 0 < k.text.length := by
      decide
    obtain ⟨proper, size⟩ := kinds k longest.member
    rw [reads]
    exact sound_plain proper size
  · rw [failed]
    exact sound_wrong _ Nat.one_pos

/-! ### Numbers -/

lemma digitRun_pos {isDigit : UInt8 → Bool} (h : isDigit b) : 0 < digitRun isDigit (b :: rest) := by
  rw [digitRun, h]
  exact Nat.succ_pos _

lemma not_digit_dot : ¬ Byte.isDigit Byte.dot := by decide

/-- A digit, or a dot before a digit, starts a number of at least a byte. -/
lemma decimalRun_pos (h : Byte.isDigit b ∨ b = Byte.dot ∧ headIs Byte.isDigit rest) :
    0 < decimalRun (b :: rest) := by
  refine Nat.lt_of_lt_of_le ?_ (Nat.le_add_right _ _)
  rcases h with digit | ⟨rfl, digit⟩
  · exact Nat.lt_of_lt_of_le (digitRun_pos digit) (Nat.le_add_right _ _)
  · have whole : digitRun Byte.isDigit (Byte.dot :: rest) = 0 := if_neg Bool.false_ne_true
    have noDot : ¬ headIs (· == Byte.dot) rest := by
      cases rest with
      | nil => nofun
      | cons c rest =>
        intro dot
        have dot : c = Byte.dot := beq_iff_eq.mp dot
        subst dot
        exact not_digit_dot digit
    rw [whole, List.drop_zero, fractionRun, if_pos ⟨rfl, noDot⟩]
    omega

lemma numberOfSize_sound {size : Nat} (h : 0 < size) : (numberOfSize text size).Sound := by
  have either {size : Nat} (h : 0 < size) : (if headIs startsName (text.drop size) then
      wrong .nameAfterNumber (size + nameRun (text.drop size)) else plain .number size).Sound := by
    split
    · exact sound_wrong _ (Nat.lt_of_lt_of_le h (Nat.le_add_right _ _))
    · exact sound_plain ⟨nofun, nofun⟩ h
  unfold numberOfSize
  refine either ?_
  split
  · exact Nat.succ_pos size
  · exact h

lemma number_sound (h : 0 < decimalRun text) : (number text).Sound := by
  unfold number
  split
  · exact numberOfSize_sound h
  · split
    · exact numberOfSize_sound (by omega)
    · exact sound_wrong _ Nat.two_pos

/-! ### Quoted literals and regular expressions -/

lemma quotedFrom_sound (q : Quote) {read : Nat} (h : 0 < read) (text : Bytes) :
    (quotedFrom q read text).Sound := by
  have kinds : q.kind ≠ .eof ∧ q.kind ≠ .error := by cases q <;> exact ⟨nofun, nofun⟩
  fun_induction quotedFrom q read text
  case case1 | case3 => exact sound_wrong _ h
  case case2 => exact ⟨Nat.succ_pos _, kinds.1, fun hk => absurd hk kinds.2⟩
  case case4 ih => exact (ih (by omega)).following _ _
  case case5 => exact sound_wrong _ (by omega)
  case case6 ih => exact (ih (by omega)).following _ _

lemma regexFrom_sound {read : Nat} (h : 0 < read) (inClass : Bool) (text : Bytes) :
    (regexFrom read inClass text).Sound := by
  fun_induction regexFrom read inClass text
  case case1 | case2 => exact sound_wrong _ h
  case case3 | case4 => exact sound_wrong _ (Nat.succ_pos _)
  case case5 ih | case6 ih | case7 ih | case9 ih => exact ih (by omega)
  case case8 => exact sound_plain ⟨nofun, nofun⟩ (by omega)

/-! ### Kinds -/

/-- What is read as a number is one, or an error. -/
lemma kind_number (text : Bytes) : (number text).kind = .number ∨ (number text).kind = .error := by
  have sized (size : Nat) :
      (numberOfSize text size).kind = .number ∨ (numberOfSize text size).kind = .error := by
    unfold numberOfSize
    dsimp only
    split
    all_goals
      split
      · exact .inr rfl
      · exact .inl rfl
  unfold number
  split
  · exact sized _
  · split
    · exact sized _
    · exact .inr rfl

/-- What is read as a punctuator is one, or an error. -/
lemma kind_name (text : Bytes) : (name text).kind.isName := by
  have keywords : ∀ k ∈ TokenKind.keywords, k.isName := by decide
  unfold name plain
  dsimp only
  cases found : TokenKind.keyword? (text.take (nameRun text)) with
  | none => rfl
  | some k => exact keywords k (TokenKind.mem_keywords found)

lemma kind_punctuator (b : UInt8) (rest : Bytes) :
    (punctuator b rest).kind ∈ TokenKind.punctuators ∨ (punctuator b rest).kind = .error := by
  obtain ⟨k, longest, reads⟩ | failed := punctuator_cases b rest
  · rw [reads]
    exact .inl longest.member
  · rw [failed]
    exact .inr rfl

/-- A quoted literal is of the kind of its quote, or an error. -/
lemma kind_quotedFrom (q : Quote) (read : Nat) (text : Bytes) :
    (quotedFrom q read text).kind = q.kind ∨ (quotedFrom q read text).kind = .error := by
  fun_induction quotedFrom q read text
  case case1 | case3 | case5 => exact .inr rfl
  case case2 => exact .inl rfl
  case case4 ih | case6 ih => exact ih

/-- What is read as a regular expression is one, or an error. -/
lemma kind_regexFrom (read : Nat) (inClass : Bool) (text : Bytes) :
    (regexFrom read inClass text).kind = .regex ∨ (regexFrom read inClass text).kind = .error := by
  fun_induction regexFrom read inClass text
  case case1 | case2 | case3 | case4 => exact .inr rfl
  case case5 ih | case6 ih | case7 ih | case9 ih => exact ih
  case case8 => exact .inl rfl

/-! ### Tokens -/

/-- The ways to read a token, by its first byte. -/
lemma scan_cases (previous : Option TokenKind) (b : UInt8) (rest : Bytes) :
    startsName b ∧ scan previous b rest = name (b :: rest) ∨
      (Byte.isDigit b ∨ b = Byte.dot ∧ headIs Byte.isDigit rest) ∧
        scan previous b rest = number (b :: rest) ∨
      (∃ q : Quote, b = q.mark ∧ scan previous b rest = quotedFrom q 1 rest) ∨
      (b = Byte.slash ∧ ¬ previous.any endsOperand) ∧
        scan previous b rest = regexFrom 1 false rest ∨
      scan previous b rest = punctuator b rest := by
  unfold scan
  split
  case isTrue starts => exact .inl ⟨starts, rfl⟩
  split
  case isTrue digit => exact .inr (.inl ⟨by simpa using digit, rfl⟩)
  split
  case h_1 q found =>
    have mark : q.mark = b := by simpa using List.find?_some found
    exact .inr (.inr (.inl ⟨q, mark.symm, rfl⟩))
  split
  case isTrue slash => exact .inr (.inr (.inr (.inl ⟨slash, rfl⟩)))
  case isFalse => exact .inr (.inr (.inr (.inr rfl)))

/-- What a token was read as, by its kind. -/
lemma scan_kinds (previous : Option TokenKind) (b : UInt8) (rest : Bytes) :
    (scan previous b rest).kind.isName ∧ scan previous b rest = name (b :: rest) ∨
      (∃ q : Quote, (scan previous b rest).kind = q.kind ∧ b = q.mark ∧
        scan previous b rest = quotedFrom q 1 rest) ∨
      (scan previous b rest).kind ∈ TokenKind.punctuators ∧
        scan previous b rest = punctuator b rest ∨
      (scan previous b rest).kind ∈ ([.number, .regex, .error] : List TokenKind) := by
  have failed : TokenKind.error ∈ ([.number, .regex, .error] : List TokenKind) := by decide
  rcases scan_cases previous b rest with
    ⟨-, reads⟩ | ⟨-, reads⟩ | ⟨q, mark, reads⟩ | ⟨-, reads⟩ | reads <;> rw [reads]
  · exact .inl ⟨kind_name _, rfl⟩
  · refine .inr (.inr (.inr ?_))
    rcases kind_number (b :: rest) with kind | kind <;> rw [kind] <;> decide
  · rcases kind_quotedFrom q 1 rest with kind | kind
    · exact .inr (.inl ⟨q, kind, mark, rfl⟩)
    · exact .inr (.inr (.inr (kind ▸ failed)))
  · refine .inr (.inr (.inr ?_))
    rcases kind_regexFrom 1 false rest with kind | kind <;> rw [kind] <;> decide
  · rcases kind_punctuator b rest with kind | kind
    · exact .inr (.inr (.inl ⟨kind, rfl⟩))
    · exact .inr (.inr (.inr (kind ▸ failed)))

lemma scan_mark (previous : Option TokenKind) (q : Quote) (rest : Bytes) :
    scan previous q.mark rest = quotedFrom q 1 rest := by
  cases q <;> rfl

/-- Every token is read soundly, whatever stands before it. -/
theorem scan_sound (previous : Option TokenKind) (b : UInt8) (rest : Bytes) :
    (scan previous b rest).Sound := by
  rcases scan_cases previous b rest with
    ⟨starts, reads⟩ | ⟨digit, reads⟩ | ⟨q, -, reads⟩ | ⟨-, reads⟩ | reads <;> rw [reads]
  · exact name_sound starts
  · exact number_sound (decimalRun_pos digit)
  · exact quotedFrom_sound q Nat.one_pos rest
  · exact regexFrom_sound Nat.one_pos false rest
  · exact punctuator_sound b rest

/-! ### Sizes -/

lemma nameRun_le (text : Bytes) : nameRun text ≤ text.length :=
  (List.takeWhile_prefix _).length_le

lemma digitRun_le (isDigit : UInt8 → Bool) (text : Bytes) :
    digitRun isDigit text ≤ text.length := by
  fun_induction digitRun isDigit text
  case case1 => exact Nat.le_refl _
  case case2 ih => exact Nat.succ_le_succ ih
  case case3 => exact Nat.zero_le _

lemma fractionRun_le (text : Bytes) : fractionRun text ≤ text.length := by
  unfold fractionRun
  split
  · exact Nat.le_refl _
  · split
    · exact Nat.succ_le_succ (digitRun_le _ _)
    · exact Nat.zero_le _

lemma exponentRun_le (text : Bytes) : exponentRun text ≤ text.length := by
  unfold exponentRun
  split
  · exact Nat.le_refl _
  case h_2 e rest =>
    dsimp only
    generalize (if headIs _ rest then 1 else 0) = sign
    split
    case isTrue digit =>
      have digits := digitRun_le Byte.isDigit (rest.drop sign)
      have inside : 0 < (rest.drop sign).length := by
        refine List.length_pos_iff.mpr fun none => ?_
        rw [none] at digit
        cases digit.2
      rw [List.length_drop] at digits inside
      rw [List.length_cons]
      omega
    case isFalse => exact Nat.zero_le _

lemma decimalRun_le (text : Bytes) : decimalRun text ≤ text.length := by
  have whole := digitRun_le Byte.isDigit text
  have fraction := fractionRun_le (text.drop (digitRun Byte.isDigit text))
  rw [List.length_drop] at fraction
  unfold decimalRun
  have exponent := exponentRun_le (text.drop (digitRun Byte.isDigit text +
    fractionRun (text.drop (digitRun Byte.isDigit text))))
  rw [List.length_drop] at exponent
  dsimp only
  omega

lemma numberOfSize_le {size : Nat} (h : size ≤ text.length) :
    (numberOfSize text size).size ≤ text.length := by
  have either {size : Nat} (h : size ≤ text.length) : (if headIs startsName (text.drop size) then
      wrong .nameAfterNumber (size + nameRun (text.drop size)) else plain .number size).size ≤
        text.length := by
    split
    · have name := nameRun_le (text.drop size)
      rw [List.length_drop] at name
      change size + nameRun (text.drop size) ≤ text.length
      omega
    · exact h
  unfold numberOfSize
  refine either ?_
  split
  case isTrue suffix =>
    refine Nat.lt_of_le_of_ne h fun all => ?_
    rw [all, List.drop_length] at suffix
    cases suffix
  case isFalse => exact h

lemma two_le_of_radix {isDigit : UInt8 → Bool} (h : radix? text = some isDigit) :
    2 ≤ text.length := by
  unfold radix? at h
  split at h
  · exact Nat.le_add_left _ _
  · cases h

lemma number_le (text : Bytes) : (number text).size ≤ text.length := by
  unfold number
  split
  case h_1 => exact numberOfSize_le (decimalRun_le text)
  case h_2 isDigit radix =>
    have two := two_le_of_radix radix
    split
    · have digits := digitRun_le isDigit (text.drop 2)
      rw [List.length_drop] at digits
      exact numberOfSize_le (by omega)
    · exact two

lemma punctuator_le (b : UInt8) (rest : Bytes) :
    (punctuator b rest).size ≤ (b :: rest).length := by
  obtain ⟨k, longest, reads⟩ | failed := punctuator_cases b rest
  · rw [reads]
    exact longest.starts.length_le
  · rw [failed]
    exact Nat.le_add_left _ _

lemma regexFrom_le (read : Nat) (inClass : Bool) (text : Bytes) :
    (regexFrom read inClass text).size ≤ read + text.length := by
  fun_induction regexFrom read inClass text
  case case1 => exact Nat.le_refl _
  case case2 => exact Nat.le_add_right _ _
  case case3 => exact Nat.le_refl _
  case case4 => exact Nat.add_le_add_left (Nat.le_add_left _ _) _
  case case5 ih | case6 ih | case7 ih | case9 ih =>
    simp only [List.length_cons] at ih ⊢
    omega
  case case8 b rest _ _ _ _ _ =>
    have flags := nameRun_le rest
    change _ + 1 + nameRun rest ≤ _
    rw [List.length_cons]
    omega

namespace Escape

lemma hex_le (text : Bytes) : (hex text).size ≤ text.length + 1 := by
  unfold hex
  split
  · split
    · exact Nat.le_add_left _ _
    · exact Nat.le_add_left _ _
  · exact Nat.le_add_left _ _

lemma fixed_le (read value missing : Nat) (text : Bytes) :
    (fixed read value missing text).size ≤ read + text.length := by
  fun_induction fixed read value missing text
  case case1 | case3 => exact Nat.le_add_right _ _
  case case2 text d digit ih =>
    cases text with
    | nil => cases digit
    | cons b text =>
      rw [List.tail_cons] at ih
      rw [List.tail_cons, List.length_cons]
      omega

lemma braced_le (read value room : Nat) (text : Bytes) :
    (braced read value room text).size ≤ read + text.length := by
  fun_induction braced read value room text
  case case1 => exact Nat.le_refl _
  case case2 | case4 => exact Nat.add_le_add_left (Nat.le_add_left _ _) _
  case case3 ih =>
    rw [List.length_cons]
    omega

lemma read_le (text : Bytes) : (Escape.read text).size ≤ text.length := by
  unfold Escape.read
  split
  · exact Nat.le_refl _
  case h_2 b rest =>
    rw [List.length_cons]
    split_ifs with _ _ feed _ _ brace
    · exact Nat.le_add_left _ _
    · cases rest with
      | nil => cases feed
      | cons c rest => exact Nat.le_add_left _ _
    · exact Nat.le_add_left _ _
    · exact hex_le rest
    · have digits := braced_le 2 0 6 rest.tail
      cases rest with
      | nil => cases brace
      | cons c rest =>
        rw [List.tail_cons] at digits
        rw [List.tail_cons, List.length_cons]
        omega
    · have digits := fixed_le 1 0 4 rest
      omega
    · exact Nat.le_add_left _ _

end Escape

lemma quotedFrom_le (q : Quote) (read : Nat) (text : Bytes) :
    (quotedFrom q read text).size ≤ read + text.length := by
  fun_induction quotedFrom q read text
  case case1 => exact Nat.le_refl _
  case case2 => exact Nat.add_le_add_left (Nat.le_add_left _ _) _
  case case3 => exact Nat.le_add_right _ _
  case case4 read rest e read' _ _ ih =>
    have escape : e.size ≤ rest.length := Escape.read_le rest
    rw [List.length_drop] at ih
    rw [List.length_cons]
    change (quotedFrom _ _ _).size ≤ _
    omega
  case case5 rest _ _ _ _ skipped =>
    have inside := List.length_take_le' (skipped + 1) rest
    rw [List.length_cons]
    change _ + 1 + _ ≤ _
    omega
  case case6 ih =>
    rw [List.length_cons]
    change (quotedFrom _ _ _).size ≤ _
    omega

/-- No token is longer than what is left of the text. -/
lemma scan_le (previous : Option TokenKind) (b : UInt8) (rest : Bytes) :
    (scan previous b rest).size ≤ (b :: rest).length := by
  rcases scan_cases previous b rest with
    ⟨-, reads⟩ | ⟨-, reads⟩ | ⟨q, -, reads⟩ | ⟨-, reads⟩ | reads <;> rw [reads]
  · exact nameRun_le _
  · exact number_le _
  · rw [List.length_cons, Nat.add_comm]
    exact quotedFrom_le q 1 rest
  · rw [List.length_cons, Nat.add_comm]
    exact regexFrom_le 1 false rest
  · exact punctuator_le b rest

end ModuleLint.Lexeme
