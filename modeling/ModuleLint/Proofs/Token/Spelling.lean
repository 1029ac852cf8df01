import Mathlib.Tactic.Common
import ModuleLint.Proofs.Bytes.Utf8
import ModuleLint.Proofs.Token.Respelling

/-!
The ways to write a string.

`Writes q chars text` says that the text between two quotes `q` writes the characters, each in a
spelling of its own: raw, as a number in one of three forms, as a letter for a control character, or
behind a backslash. Lines may be continued anywhere. Escapes look ahead, so each lemma about a
spelling leaves open what follows it; only a carriage return needs to know that no line feed does.
-/

namespace ModuleLint

/-! ### UTF-8 -/

namespace Utf8

lemma toNat_lt (c : Char) : c.toNat < 0x110000 := by
  rcases c.valid with low | high
  · exact Nat.lt_trans low (by decide)
  · exact high.2

/-- The encoder writes every character as UTF-8 does. -/
lemma encode_char (c : Char) : encode c.toNat = String.utf8EncodeChar c := by
  have bound := toNat_lt c
  have ofToNat : c.val.toNat = c.toNat := rfl
  unfold encode String.utf8EncodeChar
  simp only [continuation_eq, Nat.shiftRight_eq_div_pow, ofToNat]
  by_cases one : c.toNat < 0x80
  · rw [if_pos one, if_pos (Nat.le_of_lt_succ one)]
  have one' : ¬ c.toNat ≤ 127 := by omega
  rw [if_neg one, if_neg one']
  by_cases two : c.toNat < 0x800
  · have low : c.toNat / 2 ^ 6 < 2 ^ 5 := by omega
    have marked : 0xC0 ||| c.toNat / 2 ^ 6 = c.toNat / 64 % 32 + 192 :=
      (marked_eq_add 6 low).trans (by omega)
    rw [if_pos two, if_pos (Nat.le_of_lt_succ two), marked]
  have two' : ¬ c.toNat ≤ 2047 := by omega
  rw [if_neg two, if_neg two']
  by_cases three : c.toNat < 0x10000
  · have low : c.toNat / 2 ^ 12 < 2 ^ 4 := by omega
    have marked : 0xE0 ||| c.toNat / 2 ^ 12 = c.toNat / 4096 % 16 + 224 :=
      (marked_eq_add 14 low).trans (by omega)
    rw [if_pos three, if_pos (Nat.le_of_lt_succ three), marked]
  · have low : c.toNat / 2 ^ 18 < 2 ^ 3 := by omega
    have marked : 0xF0 ||| c.toNat / 2 ^ 18 = c.toNat / 262144 % 8 + 240 :=
      (marked_eq_add 30 low).trans (by omega)
    have three' : ¬ c.toNat ≤ 65535 := by omega
    rw [if_neg three, if_neg three', marked]

/-- A character of ASCII is its own byte; every byte of another stands outside ASCII. -/
lemma ascii_or_high (c : Char) :
    (c.toNat < 0x80 ∧ String.utf8EncodeChar c = [byte c]) ∨
      ∀ b ∈ String.utf8EncodeChar c, 0x80 ≤ b := by
  have high (n mark : Nat) (h : n + mark < 256) (marked : 128 ≤ mark) :
      (0x80 : UInt8) ≤ UInt8.ofNat (n + mark) := by
    rw [UInt8.le_iff_toNat_le, UInt8.toNat_ofNat', Nat.mod_eq_of_lt h]
    exact Nat.le_trans marked (Nat.le_add_left _ _)
  unfold String.utf8EncodeChar
  dsimp only
  split
  case isTrue one => exact .inl ⟨Nat.lt_succ_of_le one, rfl⟩
  refine .inr ?_
  split_ifs <;> simp only [List.mem_cons, List.not_mem_nil, or_false, forall_eq_or_imp, forall_eq]
  · exact ⟨high _ _ (by omega) (by omega), high _ _ (by omega) (by omega)⟩
  · exact ⟨high _ _ (by omega) (by omega), high _ _ (by omega) (by omega),
      high _ _ (by omega) (by omega)⟩
  · exact ⟨high _ _ (by omega) (by omega), high _ _ (by omega) (by omega),
      high _ _ (by omega) (by omega), high _ _ (by omega) (by omega)⟩

end Utf8

lemma byte_inj {c d : Char} (hc : c.toNat < 0x80) (hd : d.toNat < 0x80) (h : byte c = byte d) :
    c = d := by
  have same := congrArg UInt8.toNat h
  simp only [byte, UInt8.toNat_ofNat', Nat.toUInt8_eq] at same
  rw [Nat.mod_eq_of_lt (by omega), Nat.mod_eq_of_lt (by omega)] at same
  exact Char.toNat_inj.mp same

namespace Lexeme

/-! ### Spellings -/

/-- A hexadecimal digit as it is written. -/
structure HexDigit where
  value : Fin 16
  capital : Bool
  deriving DecidableEq, Repr

namespace HexDigit

def byte (d : HexDigit) : UInt8 :=
  (ascii (if d.capital then "0123456789ABCDEF" else "0123456789abcdef")).getD d.value 0

/-- The number that digits write, after those that write `high`. -/
def number (high : Nat) (ds : List HexDigit) : Nat := ds.foldl (fun n d => n * 16 + d.value) high

lemma hexValue?_byte (d : HexDigit) : Byte.hexValue? d.byte = some d.value.val := by
  obtain ⟨value, capital⟩ := d
  revert value capital
  decide

lemma byte_ne_brace (d : HexDigit) : d.byte ≠ Byte.openBrace ∧ d.byte ≠ Byte.closeBrace := by
  obtain ⟨value, capital⟩ := d
  revert value capital
  decide

end HexDigit

/-- The control characters that have a letter, which names them after a backslash. -/
def controls : List (Char × Char) :=
  [('n', '\n'), ('t', '\t'), ('r', '\r'), ('b', '\x08'), ('f', '\x0C'), ('v', '\x0B'),
    ('0', '\x00')]

/-- The characters that do not stand for themselves after a backslash. -/
def special : List Char := ['n', 't', 'r', 'b', 'f', 'v', '0', 'x', 'u', '\r', '\n']

lemma special_low {d : Char} (hd : d ∈ special) : d.toNat < 0x80 ∧ byte d < 0x80 := by
  have each : special.all (fun d => d.toNat < 0x80 && byte d < 0x80) = true := by decide
  simpa using List.all_eq_true.mp each d hd

/-- A spelling of a character between quotes `q`. -/
inductive Spells (q : Quote) (c : Char) : Bytes → Prop
  | raw (mark : c.toNat ≠ q.mark.toNat) (escape : c ≠ '\\') (feed : c ≠ '\n') :
    Spells q c (String.utf8EncodeChar c)
  | hex (hi lo : HexDigit) (names : HexDigit.number 0 [hi, lo] = c.toNat) :
    Spells q c [Byte.backslash, byte 'x', hi.byte, lo.byte]
  | fixed (d₁ d₂ d₃ d₄ : HexDigit) (names : HexDigit.number 0 [d₁, d₂, d₃, d₄] = c.toNat) :
    Spells q c [Byte.backslash, byte 'u', d₁.byte, d₂.byte, d₃.byte, d₄.byte]
  | braced (ds : List HexDigit) (some : ds ≠ []) (six : ds.length ≤ 6)
    (names : HexDigit.number 0 ds = c.toNat) :
    Spells q c
      (Byte.backslash :: byte 'u' :: Byte.openBrace :: (ds.map (·.byte) ++ [Byte.closeBrace]))
  | letter (l : Char) (names : (l, c) ∈ controls) : Spells q c [Byte.backslash, byte l]
  | itself (free : c ∉ special) : Spells q c (Byte.backslash :: String.utf8EncodeChar c)

/-- The line ends that a backslash takes away. -/
def lineEnds : List Bytes :=
  [[Byte.lineFeed], [Byte.carriageReturn, Byte.lineFeed], [Byte.carriageReturn]]

/-- A text between quotes `q` that writes characters. A line feed behind a carriage return would be
taken away with it, but nothing that is written here starts with one. -/
inductive Writes (q : Quote) : List Char → Bytes → Prop
  | nothing : Writes q [] []
  | char {c : Char} {cs : List Char} {s text : Bytes} (spelling : Spells q c s)
    (more : Writes q cs text) : Writes q (c :: cs) (s ++ text)
  | continued {lineEnd text : Bytes} {cs : List Char} (ends : lineEnd ∈ lineEnds)
    (more : Writes q cs text) : Writes q cs (Byte.backslash :: (lineEnd ++ text))

/-! ### Reading an escape -/

namespace Escape

variable {c l : Char} {b : UInt8} {rest : Bytes} {read value room : Nat}

lemma hex_digits (hi lo : HexDigit) (rest : Bytes) :
    hex (hi.byte :: lo.byte :: rest) = right 3 (Utf8.encode (HexDigit.number 0 [hi, lo])) := by
  simp [hex, HexDigit.hexValue?_byte, HexDigit.number]

lemma fixed_digits (ds : List HexDigit) (rest : Bytes) :
    fixed read value ds.length (ds.map (·.byte) ++ rest) =
      right (read + ds.length) (Utf8.encode (HexDigit.number value ds)) := by
  induction ds generalizing read value with
  | nil => rfl
  | cons d ds ih =>
    have digit : ((d :: ds).map (·.byte) ++ rest).head?.bind Byte.hexValue? = some d.value.val :=
      d.hexValue?_byte
    rw [List.length_cons, fixed, digit]
    refine ih.trans ?_
    rw [Nat.add_right_comm]
    rfl

lemma braced_cons (d : HexDigit) (rest : Bytes) :
    braced read value (room + 1) (d.byte :: rest) =
      braced (read + 1) (value * 16 + d.value) room rest := by
  rw [braced.eq_def]
  simp only [d.byte_ne_brace.2, d.hexValue?_byte, if_false]

lemma braced_digits (ds : List HexDigit) (rest : Bytes) (h : ds.length ≤ room) :
    braced read value room (ds.map (·.byte) ++ Byte.closeBrace :: rest) =
      right (read + ds.length + 1) (Utf8.encode (HexDigit.number value ds)) := by
  induction ds generalizing read value room with
  | nil =>
    rw [List.map_nil, List.nil_append, braced.eq_def]
    exact if_pos rfl
  | cons d ds ih =>
    cases room with
    | zero => cases h
    | succ room =>
      have size : read + 1 + ds.length + 1 = read + (d :: ds).length + 1 := by
        rw [List.length_cons]
        omega
      rw [List.map_cons, List.cons_append, braced_cons, ih (Nat.le_of_succ_le_succ h), size]
      rfl

lemma read_hex (hi lo : HexDigit) (rest : Bytes) :
    Escape.read (byte 'x' :: hi.byte :: lo.byte :: rest) =
      right 3 (Utf8.encode (HexDigit.number 0 [hi, lo])) :=
  hex_digits hi lo rest

lemma read_fixed (d₁ d₂ d₃ d₄ : HexDigit) (rest : Bytes) :
    Escape.read (byte 'u' :: d₁.byte :: d₂.byte :: d₃.byte :: d₄.byte :: rest) =
      right 5 (Utf8.encode (HexDigit.number 0 [d₁, d₂, d₃, d₄])) := by
  have noBrace :
      ¬ headIs (· == Byte.openBrace) (d₁.byte :: d₂.byte :: d₃.byte :: d₄.byte :: rest) :=
    fun brace => d₁.byte_ne_brace.1 (beq_iff_eq.mp brace)
  have digits := @fixed_digits 1 0 [d₁, d₂, d₃, d₄] rest
  rw [Escape.read, if_neg (by decide), if_neg (by decide), if_neg (by decide), if_pos rfl,
    if_neg noBrace]
  exact digits

lemma read_braced (ds : List HexDigit) (rest : Bytes) (six : ds.length ≤ 6) :
    Escape.read (byte 'u' :: Byte.openBrace :: (ds.map (·.byte) ++ Byte.closeBrace :: rest)) =
      right (2 + ds.length + 1) (Utf8.encode (HexDigit.number 0 ds)) :=
  braced_digits ds rest six

lemma read_letter (h : (l, c) ∈ controls) (rest : Bytes) :
    Escape.read (byte l :: rest) = right 1 (String.utf8EncodeChar c) := by
  simp only [controls, List.mem_cons, List.not_mem_nil, or_false, Prod.mk.injEq] at h
  rcases h with ⟨rfl, rfl⟩ | ⟨rfl, rfl⟩ | ⟨rfl, rfl⟩ | ⟨rfl, rfl⟩ | ⟨rfl, rfl⟩ | ⟨rfl, rfl⟩ |
    ⟨rfl, rfl⟩ <;> rfl

/-- A byte that no special character has stands for itself. -/
lemma read_itself (h : ∀ d ∈ special, b ≠ byte d) (rest : Bytes) :
    Escape.read (b :: rest) = right 1 [b] := by
  simp only [special, List.forall_mem_cons, List.not_mem_nil, IsEmpty.forall_iff, implies_true,
    and_true] at h
  obtain ⟨n, t, r, b', f, v, zero, x, u, ret, feed⟩ := h
  have none : letters.lookup b = none := by
    rw [List.lookup_eq_none_iff]
    simp [letters, n, t, r, b', f, v, zero]
  have noFeed : ¬ b = Byte.lineFeed := feed
  have noReturn : ¬ b = Byte.carriageReturn := ret
  rw [Escape.read, if_neg noFeed, if_neg noReturn, if_neg x, if_neg u, none]
  rfl

end Escape

/-! ### Reading a text between quotes -/

/-- A literal with more of its value before the rest. -/
def behind (value : Bytes) (rest : Lexeme) : Lexeme :=
  { rest with value := rest.value.map (value ++ ·) }

lemma following_right (n : Nat) (value : Bytes) (size : Nat) (rest : Lexeme) :
    following (.right n value) size rest = behind value rest := rfl

lemma behind_behind (v w : Bytes) (rest : Lexeme) :
    behind v (behind w rest) = behind (v ++ w) rest := by
  simp [behind, Function.comp_def]

section Quoted

variable {q : Quote} {c : Char} {cs : List Char} {b : UInt8} {s text r : Bytes} {read : Nat}

lemma quotedFrom_mark : quotedFrom q read (q.mark :: r) = ⟨q.kind, read + 1, some [], []⟩ := by
  rw [quotedFrom, if_pos rfl]

lemma quotedFrom_byte (h : q = .template → b ≠ Byte.dollar) (mark : b ≠ q.mark)
    (escape : b ≠ Byte.backslash) (feed : b ≠ Byte.lineFeed) :
    quotedFrom q read (b :: r) = behind [b] (quotedFrom q (read + 1) r) := by
  rw [quotedFrom_cons escape, if_neg mark, if_neg (fun ends => feed ends.2),
    if_neg (fun opens => h opens.1 opens.2.1), following_right]

lemma quotedFrom_right {value : Bytes} {n : Nat} (h : Escape.read r = .right n value) :
    quotedFrom q read (Byte.backslash :: r) =
      behind value (quotedFrom q (read + 1 + n) (r.drop n)) := by
  rw [quotedFrom_escape, h, following_right]
  rfl

/-- Bytes outside ASCII stand for themselves. -/
lemma quotedFrom_high (high : ∀ b ∈ s, 0x80 ≤ b) :
    quotedFrom q read (s ++ r) = behind s (quotedFrom q (read + s.length) r) := by
  have low : q.mark < 0x80 ∧ Byte.backslash < 0x80 ∧ Byte.lineFeed < 0x80 ∧
      Byte.dollar < 0x80 := by
    cases q <;> decide
  induction s generalizing read with
  | nil => simp [behind]
  | cons b s ih =>
    obtain ⟨first, more⟩ := List.forall_mem_cons.mp high
    have other {d : UInt8} (hd : d < 0x80) : b ≠ d := by
      rintro rfl
      exact absurd hd (UInt8.not_lt.mpr first)
    have size : read + 1 + s.length = read + (b :: s).length := by
      rw [List.length_cons]
      omega
    rw [List.cons_append, quotedFrom_byte (fun _ => other low.2.2.2) (other low.1) (other low.2.1)
      (other low.2.2.1), ih more, behind_behind, size]
    rfl

/-- **Every spelling of a character reads as its UTF-8**, whatever follows. -/
lemma quotedFrom_spells (h : q ≠ .template) (spelling : Spells q c s) :
    quotedFrom q read (s ++ r) =
      behind (String.utf8EncodeChar c) (quotedFrom q (read + s.length) r) := by
  cases spelling with
  | raw mark escape feed =>
    rcases Utf8.ascii_or_high c with ⟨low, one⟩ | high
    · have mark' : byte c ≠ q.mark := by
        intro same
        have same := congrArg UInt8.toNat same
        rw [byte, Nat.toUInt8_eq, UInt8.toNat_ofNat', Nat.mod_eq_of_lt (by omega)] at same
        exact mark same
      have escape' : byte c ≠ byte '\\' := fun same => escape (byte_inj low (by decide) same)
      have feed' : byte c ≠ byte '\n' := fun same => feed (byte_inj low (by decide) same)
      rw [one]
      exact quotedFrom_byte (fun template => absurd template h) mark' escape' feed'
    · exact quotedFrom_high high
  | hex hi lo names =>
    have escape := Escape.read_hex hi lo r
    rw [names, Utf8.encode_char] at escape
    exact quotedFrom_right escape
  | fixed d₁ d₂ d₃ d₄ names =>
    have escape := Escape.read_fixed d₁ d₂ d₃ d₄ r
    rw [names, Utf8.encode_char] at escape
    exact quotedFrom_right escape
  | braced ds some six names =>
    have escape := Escape.read_braced ds r six
    rw [names, Utf8.encode_char] at escape
    have behindDigits : (byte 'u' :: Byte.openBrace ::
        (ds.map (·.byte) ++ Byte.closeBrace :: r)).drop (2 + ds.length + 1) = r := by
      rw [show 2 + ds.length + 1 = (ds.length + 1) + 1 + 1 by omega, List.drop_succ_cons,
        List.drop_succ_cons, List.drop_append]
      simp
    have size : read + 1 + (2 + ds.length + 1) = read + (Byte.backslash :: byte 'u' ::
        Byte.openBrace :: (ds.map (·.byte) ++ [Byte.closeBrace])).length := by
      simp only [List.length_cons, List.length_append, List.length_map, List.length_nil]
      omega
    have literal := @quotedFrom_right q _ read _ _ escape
    rw [behindDigits, size] at literal
    simpa using literal
  | letter l names => exact quotedFrom_right (Escape.read_letter names r)
  | itself free =>
    rcases Utf8.ascii_or_high c with ⟨low, one⟩ | high
    · have free' : ∀ d ∈ special, byte c ≠ byte d := fun d hd same =>
        free (byte_inj low (special_low hd).1 same ▸ hd)
      rw [one]
      exact quotedFrom_right (Escape.read_itself free' r)
    · cases bytes : String.utf8EncodeChar c with
      | nil => exact absurd bytes String.utf8EncodeChar_ne_nil
      | cons b more =>
        rw [bytes] at high
        obtain ⟨first, behindFirst⟩ := List.forall_mem_cons.mp high
        have free' : ∀ d ∈ special, b ≠ byte d := by
          rintro d hd rfl
          exact absurd (special_low hd).2 (UInt8.not_lt.mpr first)
        have size : read + 1 + 1 + more.length = read + (Byte.backslash :: b :: more).length := by
          simp only [List.length_cons]
          omega
        rw [List.cons_append, List.cons_append,
          quotedFrom_right (Escape.read_itself free' (more ++ r)), List.drop_one, List.tail_cons,
          quotedFrom_high behindFirst, behind_behind, size]
        rfl

/-- A spelling starts with some byte, which is no line feed. -/
lemma Spells.exists_cons (spelling : Spells q c s) :
    ∃ b more, s = b :: more ∧ b ≠ Byte.lineFeed := by
  cases spelling with
  | hex | fixed | braced | letter | itself => exact ⟨_, _, rfl, by decide⟩
  | raw mark escape feed =>
    rcases Utf8.ascii_or_high c with ⟨low, one⟩ | high
    · exact ⟨_, _, one, fun same => feed (byte_inj low (by decide) same)⟩
    · cases bytes : String.utf8EncodeChar c with
      | nil => exact absurd bytes String.utf8EncodeChar_ne_nil
      | cons b more =>
        refine ⟨b, more, rfl, ?_⟩
        rintro rfl
        exact absurd (high _ (bytes ▸ List.mem_cons_self)) (by decide)

/-- A written text does not start with a line feed. -/
lemma Writes.head?_ne (h : Writes q cs text) : text.head? ≠ some Byte.lineFeed := by
  cases h with
  | nothing => nofun
  | continued => exact fun same => absurd (Option.some.inj same) (by decide)
  | char spelling more =>
    obtain ⟨b, rest, rfl, feed⟩ := spelling.exists_cons
    exact fun same => feed (Option.some.inj same)

/-- A continued line adds nothing. -/
lemma quotedFrom_lineEnd {lineEnd : Bytes} (ends : lineEnd ∈ lineEnds)
    (h : r.head? ≠ some Byte.lineFeed) :
    quotedFrom q read (Byte.backslash :: (lineEnd ++ r)) =
      behind [] (quotedFrom q (read + 1 + lineEnd.length) r) := by
  simp only [lineEnds, List.mem_cons, List.not_mem_nil, or_false] at ends
  have alone : ¬ headIs (· == Byte.lineFeed) r := by
    cases r with
    | nil => nofun
    | cons b r => exact fun same => h (congrArg some (beq_iff_eq.mp same))
  rcases ends with rfl | rfl | rfl
  · exact quotedFrom_right rfl
  · exact quotedFrom_right rfl
  · refine quotedFrom_right ?_
    change Escape.read (Byte.carriageReturn :: r) = _
    rw [Escape.read, if_neg (by decide), if_pos rfl, if_neg alone]
    rfl

/-- **A written text reads as the UTF-8 of its characters**, up to the closing quote. -/
lemma quotedFrom_writes (h : q ≠ .template) (writes : Writes q cs text) :
    quotedFrom q read (text ++ [q.mark]) =
      ⟨q.kind, read + text.length + 1, some (cs.flatMap String.utf8EncodeChar), []⟩ := by
  induction writes generalizing read with
  | nothing => exact quotedFrom_mark
  | char spelling more ih =>
    rw [List.append_assoc, quotedFrom_spells h spelling, ih, List.length_append, ← Nat.add_assoc]
    rfl
  | @continued lineEnd text cs ends more ih =>
    have head : (text ++ [q.mark]).head? ≠ some Byte.lineFeed := by
      cases text with
      | nil => cases q <;> decide
      | cons b text => exact more.head?_ne
    have size : read + 1 + lineEnd.length + text.length =
        read + (Byte.backslash :: (lineEnd ++ text)).length := by
      rw [List.length_cons, List.length_append]
      omega
    rw [List.cons_append, List.append_assoc, quotedFrom_lineEnd ends head, ih, size]
    rfl

end Quoted

end Lexeme

open Lexeme

/-! ### The tokens of a written string -/

/-- The literal with a text between two quotes. -/
def Lexeme.Quote.enclose (q : Quote) (text : Bytes) : Bytes := q.mark :: (text ++ [q.mark])

lemma Lexeme.Quote.length_enclose (q : Quote) (text : Bytes) :
    (q.enclose text).length = 1 + text.length + 1 := by
  rw [enclose, List.length_cons, List.length_append, List.length_singleton]
  omega

lemma Lexeme.Quote.kind_eq_string {q : Quote} (h : q ≠ .template) : q.kind = .string := by
  cases q with
  | template => exact absurd rfl h
  | single | double => rfl

lemma Lexeme.scan_enclose {q : Quote} {cs : List Char} {text : Bytes} (h : q ≠ .template)
    (writes : Writes q cs text) (previous : Option TokenKind) :
    scan previous q.mark (text ++ [q.mark]) =
      ⟨.string, (q.enclose text).length, some (cs.flatMap String.utf8EncodeChar), []⟩ := by
  have reads : quotedFrom q 1 (text ++ [q.mark]) = _ := quotedFrom_writes h writes
  rw [scan_mark, reads, Quote.kind_eq_string h, Quote.length_enclose]

/-- **All spellings of a string denote the same value.** A text that writes characters between two
quotes of the same kind is one string token over the whole text, read without an error, and its
value is the UTF-8 of the characters however they are spelled. -/
theorem Source.tokens_of_writes {q : Quote} {cs : List Char} {text : Bytes} (h : q ≠ .template)
    (writes : Writes q cs text) (name : Bytes) :
    (Source.mk name (q.enclose text)).tokens =
      ⟨[⟨.string, TokenList.spanOf name .first (q.enclose text), q.enclose text,
          cs.flatMap String.utf8EncodeChar, false⟩,
        ⟨.eof, TokenList.spanOf name (Place.first.after (q.enclose text)) [], [], [], false⟩],
        []⟩ := by
  have noGap : Gap.scan (q.enclose text) = .empty := by
    refine Gap.scan_eq_empty_iff.mpr ?_
    cases q <;> exact ⟨by decide, by decide, fun slash => absurd slash (by decide)⟩
  have here : TokenList.gapEnd .first (q.enclose text) = .first := by
    rw [TokenList.gapEnd, noGap]
    rfl
  have starts : (q.enclose text).drop (Gap.scan (q.enclose text)).size =
      q.mark :: (text ++ [q.mark]) := by
    rw [noGap]
    rfl
  have lexeme := scan_enclose h writes none
  have bytes : TokenList.tokenBytes none q.mark (text ++ [q.mark]) = q.enclose text := by
    rw [TokenList.tokenBytes, lexeme]
    exact List.take_length
  have nothing : TokenList.tokenRest none q.mark (text ++ [q.mark]) = [] := by
    rw [TokenList.tokenRest, lexeme]
    exact List.drop_length
  rw [Source.tokens, TokenList.scanFrom_token starts, TokenList.afterToken, nothing,
    TokenList.scanFrom_end rfl, TokenList.tokenEnd, TokenList.nextToken, TokenList.nextFaults,
    here, bytes, lexeme, noGap]
  rfl

/-- The lines `'a\x2E\` and `b\u{20ac}'`, with a carriage return between them, write `a.b€`. -/
theorem Source.tokens_of_writes_dotted :
    Quote.single ≠ .template ∧
      Writes .single ['a', '.', 'b', '€'] (ascii "a\\x2E\\\rb\\u\x7b20ac\x7d") ∧
      (Source.mk (ascii "a.js")
        (ascii "'a\\x2E\\\rb\\u\x7b20ac\x7d'")).tokens.tokens.map (·.value) =
          [ascii "a.b" ++ [0xE2, 0x82, 0xAC], []] := by
  have euro : Spells .single '€' (ascii "\\u\x7b20ac\x7d") :=
    .braced [⟨2, false⟩, ⟨0, false⟩, ⟨10, false⟩, ⟨12, false⟩] (List.cons_ne_nil _ _) (by decide)
      rfl
  have dot : Spells .single '.' (ascii "\\x2E") := .hex ⟨2, false⟩ ⟨14, true⟩ rfl
  have b : Spells .single 'b' (ascii "b") := .raw (by decide) (by decide) (by decide)
  have a : Spells .single 'a' (ascii "a") := .raw (by decide) (by decide) (by decide)
  have line : Writes .single ['b', '€'] (ascii "\\\rb\\u\x7b20ac\x7d") :=
    @Writes.continued _ [Byte.carriageReturn] _ _ (by decide) (.char b (.char euro .nothing))
  have writes : Writes .single ['a', '.', 'b', '€'] (ascii "a\\x2E\\\rb\\u\x7b20ac\x7d") :=
    .char a (.char dot line)
  have single : Quote.single ≠ .template := by decide
  exact ⟨single, writes, congrArg (·.tokens.map (·.value))
    (Source.tokens_of_writes single writes (ascii "a.js"))⟩

end ModuleLint
