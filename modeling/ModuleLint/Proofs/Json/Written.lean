import Mathlib.Data.Bool.AllAny
import Mathlib.Tactic.Common
import ModuleLint.Diagnostic.Json
import ModuleLint.Proofs.Json.Value

/-!
Values as they are written.

`Denotes isRaw depth text v` says that a text on one line is read as a value nested at most so deep,
whatever ends it. Strings are written byte by byte, each as the byte itself or as an escape; arrays
and objects follow from their parts.
-/

namespace ModuleLint

namespace JsonReader

variable {α β : Type} {text rest : Bytes} {b c : UInt8}

/-! ### Running readers -/

section Running

variable (p q : JsonReader α) (f : α → JsonReader β) (a : α) (text : Bytes)

@[simp] lemma bind_apply : (p >>= f) text = (p text).bind fun r => f r.1 r.2 := rfl

@[simp] lemma pure_apply : (pure a : JsonReader α) text = some (a, text) := rfl

@[simp] lemma map_apply (g : α → β) : (g <$> p) text = (p text).map fun r => (g r.1, r.2) := by
  change (p text).bind (fun r => some (g r.1, r.2)) = _
  rw [Option.map_eq_bind]
  rfl

@[simp] lemma orElse_apply : (p <|> q) text = (p text).or (q text) := Option.orElse_eq_or

@[simp] lemma discard_apply : discard p text = (p text).map fun r => ((), r.2) :=
  map_apply p text _

@[simp] lemma optional_apply :
    optional p text = ((p text).map fun r => (some r.1, r.2)).or (some (none, text)) := by
  change (some <$> p <|> pure none) text = _
  rw [orElse_apply, map_apply, pure_apply]

end Running

/-! ### Single bytes -/

lemma blanks_cons (h : isBlank b = false) : blanks (b :: rest) = some ((), b :: rest) := by
  simp [blanks, h]

lemma oneOf_cons (bytes : Bytes) :
    oneOf bytes (b :: rest) = if bytes.contains b then some (b, rest) else none := rfl

lemma mark_cons (h : isBlank b = false) :
    mark c (b :: rest) = if b = c then some ((), rest) else none := by
  rw [mark, bind_apply, blanks_cons h, Option.bind_some, discard_apply, oneOf_cons]
  by_cases same : b = c <;> simp [same]

/-- The first byte of a text decides how its value is read. -/
lemma value_cons (isRaw : UInt8 → Bool) (depth : Nat) (h : isBlank b = false) :
    value isRaw (depth + 1) (b :: rest) =
      if b = Byte.doubleQuote then
        (pieces isRaw rest).map fun r =>
          (.string ((r.1.foldr joining []).flatMap Piece.text), r.2)
      else if b = Byte.openBracket then
        (items (value isRaw depth) Byte.closeBracket rest).map fun r => (.array r.1, r.2)
      else if b = Byte.openBrace then
        (items (member isRaw (value isRaw depth)) Byte.closeBrace rest).map fun r =>
          (.object r.1, r.2)
      else (literal (b :: rest)).or (number (b :: rest)) := by
  -- A text that is no string, array or object is nothing else either.
  have others : b ∈ [Byte.doubleQuote, Byte.openBracket, Byte.openBrace] →
      literal (b :: rest) = none ∧ number (b :: rest) = none := by
    simp only [List.mem_cons, List.not_mem_nil, or_false]
    rintro (rfl | rfl | rfl) <;> exact ⟨rfl, rfl⟩
  simp only [value, string, orElse_apply, bind_apply, mark_cons h, blanks_cons h, pure_apply,
    Option.bind_some]
  split
  case isTrue quote =>
    subst quote
    cases h : pieces isRaw rest <;> simp +decide [h, others]
  case isFalse quote =>
    split
    case isTrue bracket =>
      subst bracket
      cases h : items (value isRaw depth) Byte.closeBracket rest <;> simp +decide [h, others]
    case isFalse bracket =>
      split
      case isTrue brace =>
        subst brace
        cases h : items (member isRaw (value isRaw depth)) Byte.closeBrace rest <;>
          simp +decide [h, others]
      case isFalse => simp

/-! ### Numbers -/

lemma ofDigit_sound : ∀ d < 10, Byte.isDigit (Byte.ofDigit d) ∧
    (Byte.ofDigit d - byte '0').toNat = d ∧ (Byte.ofDigit d = byte '0' → d = 0) := by
  decide

/-- Digits follow one another from the highest down, which is no zero if there are others. -/
lemma ofNat_induction {P : Nat → Bytes → Prop} (one : ∀ d < 10, P d [Byte.ofDigit d])
    (more : ∀ n d, 0 < n → d < 10 → P n (Bytes.ofNat n) →
      P (n * 10 + d) (Bytes.ofNat n ++ [Byte.ofDigit d])) (n : Nat) : P n (Bytes.ofNat n) := by
  induction n using Nat.strongRecOn with
  | ind n ih =>
    rw [Bytes.ofNat, Nat.toDigits_eq_if (by decide)]
    split
    case isTrue small => exact one n small
    case isFalse large =>
      have split := more (n / 10) (n % 10) (by omega) (by omega) (ih _ (by omega))
      rw [show n / 10 * 10 + n % 10 = n by omega] at split
      simpa [Bytes.ofNat, Byte.ofDigit] using split

lemma natural_ofNat (n : Nat) : natural (Bytes.ofNat n) = n := by
  refine ofNat_induction (P := fun n ds => natural ds = n) ?_ ?_ n
  · intro d hd
    simp [natural, (ofDigit_sound d hd).2.1]
  · intro n d _ hd ih
    rw [natural] at ih ⊢
    rw [List.foldl_append, ih]
    simp [(ofDigit_sound d hd).2.1]

lemma isDigit_ofNat (n : Nat) : ∀ b ∈ Bytes.ofNat n, Byte.isDigit b := by
  refine ofNat_induction (P := fun _ ds => ∀ b ∈ ds, Byte.isDigit b) ?_ ?_ n
  · intro d hd
    simp [(ofDigit_sound d hd).1]
  · intro n d _ hd ih b hb
    rcases List.mem_append.mp hb with hb | hb
    · exact ih b hb
    · rw [List.mem_singleton.mp hb]
      exact (ofDigit_sound d hd).1

/-- A zero at the start stands alone. -/
lemma ofNat_leads (n : Nat) :
    ∃ b ds, Bytes.ofNat n = b :: ds ∧ (b = byte '0' → n = 0 ∧ ds = []) := by
  refine ofNat_induction (P := fun n l => ∃ b ds, l = b :: ds ∧ (b = byte '0' → n = 0 ∧ ds = []))
    ?_ ?_ n
  · exact fun d hd => ⟨Byte.ofDigit d, [], rfl, fun zero => ⟨(ofDigit_sound d hd).2.2 zero, rfl⟩⟩
  · rintro n d positive hd ⟨b, ds, l, leads⟩
    refine ⟨b, ds ++ [Byte.ofDigit d], by rw [l]; rfl, fun zero => ?_⟩
    have none := (leads zero).1
    omega

/-- Nothing that continues a number stands at the head of the text. -/
def Ends (text : Bytes) : Prop :=
  ∀ b ∈ text.head?, Byte.isDigit b = false ∧ b ∉ ascii ".eE"

@[simp] lemma ends_cons : Ends (b :: rest) ↔ Byte.isDigit b = false ∧ b ∉ ascii ".eE" := by
  simp [Ends]

lemma digits_append {ds : Bytes} (all : ∀ b ∈ ds, Byte.isDigit b) (some : ds ≠ [])
    (h : Ends rest) : digits (ds ++ rest) = Option.some (ds, rest) := by
  have run : (ds ++ rest).takeWhile Byte.isDigit = ds := by
    rw [List.takeWhile_append_of_pos all]
    cases rest with
    | nil => simp
    | cons b rest => simp [(ends_cons.mp h).1]
  simp [digits, run, some]

lemma oneOf_ends {bytes : Bytes} (h : Ends rest) (sub : ∀ b ∈ bytes, b ∈ ascii ".eE") :
    oneOf bytes rest = none := by
  cases rest with
  | nil => rfl
  | cons b rest =>
    rw [oneOf_cons, if_neg]
    intro mem
    exact (ends_cons.mp h).2 (sub b (List.contains_iff_mem.mp mem))

lemma unsigned_ofNat (sign : Option UInt8) (n : Nat) (h : Ends rest) :
    unsigned sign (Bytes.ofNat n ++ rest) = some (.number (signed sign n) 0, rest) := by
  obtain ⟨b, ds, leading, leads⟩ := ofNat_leads n
  have some : Bytes.ofNat n ≠ [] := by simp [leading]
  have alone : (Bytes.ofNat n).length = 1 ∨ (Bytes.ofNat n).head? ≠ Option.some (byte '0') := by
    rw [leading]
    by_cases zero : b = byte '0'
    · simp [(leads zero).2]
    · simp [zero]
  have noFraction : oneOf [Byte.dot] rest = none :=
    oneOf_ends h (List.all_iff_forall_prop.mp (by decide))
  have noExponent : oneOf (ascii "eE") rest = none :=
    oneOf_ends h (List.all_iff_forall_prop.mp (by decide))
  simp [unsigned, digits_append (isDigit_ofNat n) some h, alone, guard, fraction, exponent,
    noFraction, noExponent, natural_ofNat]

/-- Integers are read back. -/
lemma number_ofInt (i : Int) (h : Ends rest) :
    number (Bytes.ofInt i ++ rest) = some (.number i 0, rest) := by
  cases i with
  | ofNat n =>
    obtain ⟨b, ds, leading, -⟩ := ofNat_leads n
    have digit : Byte.isDigit b := isDigit_ofNat n b (leading ▸ List.mem_cons_self)
    have noSign : oneOf (ascii "-") (Bytes.ofNat n ++ rest) = none := by
      rw [leading, List.cons_append, oneOf_cons, if_neg]
      intro mem
      obtain rfl : b = byte '-' := by simpa [ascii] using mem
      exact absurd digit (by decide)
    rw [Bytes.ofInt, number, bind_apply, optional_apply, noSign]
    exact unsigned_ofNat none n h
  | negSucc n =>
    have sign : oneOf (ascii "-") (byte '-' :: (Bytes.ofNat (n + 1) ++ rest)) =
        some (byte '-', Bytes.ofNat (n + 1) ++ rest) := rfl
    rw [Bytes.ofInt, List.cons_append, number, bind_apply, optional_apply, sign]
    exact unsigned_ofNat (some (byte '-')) (n + 1) h

/-- A byte that starts a number starts nothing else. -/
lemma value_number (isRaw : UInt8 → Bool) (depth : Nat) (h : b ∈ ascii "-0123456789") :
    value isRaw (depth + 1) (b :: rest) = number (b :: rest) := by
  have each : ∀ b ∈ ascii "-0123456789", isBlank b = false ∧ b ≠ Byte.doubleQuote ∧
      b ≠ Byte.openBracket ∧ b ≠ Byte.openBrace ∧ b ≠ byte 'n' ∧ b ≠ byte 't' ∧ b ≠ byte 'f' :=
    List.all_iff_forall_prop.mp (by decide)
  obtain ⟨blank, quote, bracket, brace, n, t, f⟩ := each b h
  have word : literal (b :: rest) = none := by
    simp [literal, literals, ascii, List.findSome?, Ne.symm n, Ne.symm t, Ne.symm f]
  simp [value_cons isRaw depth blank, quote, bracket, brace, word]

/-! ### Strings -/

section Strings

variable {isRaw : UInt8 → Bool} {escape : UInt8 → Bytes} {s w : Bytes}

/-- In a string, `w` is read as the byte `b`, and it ends no line. -/
structure Escapes (isRaw : UInt8 → Bool) (w : Bytes) (b : UInt8) : Prop where
  line : Byte.lineFeed ∉ w
  reads : ∃ piece : Piece, piece.text = [b] ∧ (∀ l, joining piece l = piece :: l) ∧
    ∀ rest, pieces isRaw (w ++ rest) = following piece (pieces isRaw rest)

lemma pieces_quote : pieces isRaw (Byte.doubleQuote :: rest) = some ([], rest) := by
  rw [pieces.eq_def]
  rfl

lemma pieces_self (h : b ≠ Byte.doubleQuote ∧ b ≠ Byte.backslash) :
    pieces isRaw (b :: rest) =
      if isRaw b then following (.byte b) (pieces isRaw rest) else none := by
  rw [pieces.eq_def]
  simp only [h, if_false]

lemma pieces_letter {letter v : UInt8} (h : (letter, v) ∈ letters) :
    pieces isRaw (Byte.backslash :: letter :: rest) = following (.byte v) (pieces isRaw rest) := by
  have each : ∀ p ∈ letters, letters.lookup p.1 = some p.2 ∧ p.1 ≠ byte 'u' :=
    List.all_iff_forall_prop.mp (by decide)
  obtain ⟨found, other⟩ := each _ h
  rw [pieces.eq_def]
  simp +decide only [found, other, if_true, if_false, Option.bind_some]

lemma pieces_unit {d₁ d₂ d₃ d₄ : UInt8} {n : Nat} (h : hexNumber? [d₁, d₂, d₃, d₄] = some n) :
    pieces isRaw (Byte.backslash :: byte 'u' :: d₁ :: d₂ :: d₃ :: d₄ :: rest) =
      following (.unit n) (pieces isRaw rest) := by
  rw [pieces.eq_def]
  simp +decide only [h, if_true, if_false, Option.bind_some]

lemma escapes_self (raw : isRaw b = true)
    (h : b ≠ Byte.doubleQuote ∧ b ≠ Byte.backslash ∧ b ≠ Byte.lineFeed) : Escapes isRaw [b] b where
  line := by simpa using Ne.symm h.2.2
  reads := ⟨.byte b, rfl, fun _ => rfl, fun rest => by
    rw [List.singleton_append, pieces_self ⟨h.1, h.2.1⟩, if_pos raw]⟩

lemma escapes_letter {letter : UInt8} (h : (letter, b) ∈ letters) :
    Escapes isRaw [Byte.backslash, letter] b where
  line := by
    have each : ∀ p ∈ letters, Byte.lineFeed ∉ [Byte.backslash, p.1] :=
      List.all_iff_forall_prop.mp (by decide)
    exact each _ h
  reads := ⟨.byte b, rfl, fun _ => rfl, fun _ => pieces_letter h⟩

lemma hexValue?_ofDigit : ∀ n < 16, Byte.hexValue? (Byte.ofDigit n) = some n := by decide

/-- Four digits write a byte of ASCII. -/
lemma escapes_unit (low : b < 0x80) :
    Escapes isRaw (ascii "\\u00" ++ [Byte.ofDigit (b.toNat / 16), Byte.ofDigit (b.toNat % 16)])
      b := by
  have low : b.toNat < 0x80 := UInt8.lt_iff_toNat_lt.mp low
  have first := hexValue?_ofDigit (b.toNat / 16) (by omega)
  have second := hexValue?_ofDigit (b.toNat % 16) (by omega)
  have zero : Byte.hexValue? (byte '0') = some 0 := by decide
  have names : hexNumber? [byte '0', byte '0', Byte.ofDigit (b.toNat / 16),
      Byte.ofDigit (b.toNat % 16)] = some b.toNat := by
    simp only [hexNumber?, List.foldlM_cons, List.foldlM_nil, zero, first, second, Option.map_some,
      Option.bind_eq_bind, Option.bind_some, Option.pure_def, Option.some.injEq]
    omega
  have single (m : Nat) : arePair b.toNat m = false := by
    simp [arePair, show b.toNat / 0x400 = 0 by omega]
  refine ⟨?_, .unit b.toNat, ?_, fun l => ?_, fun _ => pieces_unit names⟩
  · have digits : ∀ n < 16, Byte.lineFeed ≠ Byte.ofDigit n := by decide
    have start : Byte.lineFeed ∉ ascii "\\u00" := by decide
    simp only [List.mem_append, List.mem_cons, List.not_mem_nil, or_false, not_or]
    exact ⟨start, digits _ (by omega), digits _ (by omega)⟩
  · simp [Piece.text, Utf8.encode, low]
  · rcases l with _ | ⟨_ | m, l⟩ <;> simp [joining, single]

/-- **A string is read back** if each of its bytes is. -/
lemma pieces_flatMap (h : ∀ b ∈ s, Escapes isRaw (escape b) b) (rest : Bytes) :
    ∃ l, pieces isRaw (s.flatMap escape ++ Byte.doubleQuote :: rest) = some (l, rest) ∧
      (l.foldr joining []).flatMap Piece.text = s := by
  induction s with
  | nil => exact ⟨[], pieces_quote, rfl⟩
  | cons b s ih =>
    obtain ⟨first, more⟩ := List.forall_mem_cons.mp h
    obtain ⟨piece, text, single, reads⟩ := first.reads
    obtain ⟨l, readsMore, same⟩ := ih more
    refine ⟨piece :: l, ?_, ?_⟩
    · rw [List.flatMap_cons, List.append_assoc, reads, readsMore]
      rfl
    · rw [List.foldr_cons, single, List.flatMap_cons, text, same]
      rfl

end Strings

/-! ### Lists -/

section Lists

variable {item : JsonReader α} {close : UInt8} {a : α}

/-- The reader takes a text as `a`, whatever ends it. -/
def Reads (p : JsonReader α) (text : Bytes) (a : α) : Prop :=
  ∀ rest, Ends rest → p (text ++ rest) = some (a, rest)

/-- The bytes that close a list. -/
def closings : List UInt8 := [Byte.closeBracket, Byte.closeBrace]

lemma closing_sound : ∀ close ∈ closings, isBlank close = false ∧ close ≠ Byte.comma ∧
    Byte.isDigit close = false ∧ close ∉ ascii ".eE" :=
  List.all_iff_forall_prop.mp (by decide)

lemma someItems_more (h : Reads item text a) (closes : close ∈ closings) (most : Nat) :
    someItems item close (most + 1) (text ++ Byte.comma :: rest) =
      (someItems item close most rest).map fun r => (a :: r.1, r.2) := by
  have ends : Ends (Byte.comma :: rest) := ends_cons.mpr (by decide)
  have other : ¬ Byte.comma = close := fun same => (closing_sound close closes).2.1 same.symm
  simp +decide [someItems, h _ ends, mark_cons, other]

lemma someItems_last (h : Reads item text a) (closes : close ∈ closings) (most : Nat) :
    someItems item close (most + 1) (text ++ close :: rest) = some ([a], rest) := by
  obtain ⟨blank, comma, ends⟩ := closing_sound close closes
  simp [someItems, h _ (ends_cons.mpr ends), mark_cons blank, comma]

/-- **A list is read back** if each of its items is. -/
lemma someItems_join {l : List (Bytes × α)} (each : ∀ p ∈ l, Reads item p.1 p.2) (some : l ≠ [])
    (closes : close ∈ closings) {most : Nat} (enough : l.length ≤ most) (rest : Bytes) :
    someItems item close most (Bytes.join [Byte.comma] (l.map (·.1)) ++ close :: rest) =
      Option.some (l.map (·.2), rest) := by
  induction l generalizing most with
  | nil => exact absurd rfl some
  | cons p l ih =>
    obtain ⟨first, more⟩ := List.forall_mem_cons.mp each
    obtain _ | most := most
    · cases enough
    cases l with
    | nil => simpa [Bytes.join] using someItems_last first closes most
    | cons q l =>
      have behind := ih more (List.cons_ne_nil _ _) (Nat.le_of_succ_le_succ enough)
      simp only [Bytes.join, List.map_cons, List.intercalate_cons_cons, List.append_assoc]
        at behind ⊢
      rw [List.singleton_append, someItems_more first closes, behind]
      rfl

/-- A list may start with the text: no blank stands at its head and nothing that closes one. -/
def Starts (text : Bytes) : Prop := ∃ b more, text = b :: more ∧ isBlank b = false ∧ b ∉ closings

lemma length_le_join {texts : List Bytes} (starts : ∀ text ∈ texts, Starts text) :
    texts.length ≤ (Bytes.join [Byte.comma] texts).length := by
  induction texts with
  | nil => exact Nat.zero_le _
  | cons text texts ih =>
    obtain ⟨⟨b, more, rfl, -⟩, behind⟩ := List.forall_mem_cons.mp starts
    have shorter := ih behind
    cases texts with
    | nil => simp [Bytes.join]
    | cons next texts =>
      simp only [Bytes.join, List.intercalate_cons_cons, List.length_append,
        List.length_cons] at shorter ⊢
      omega

/-- A list with items does not end where it starts. -/
lemma mark_join (starts : Starts text) (closes : close ∈ closings) (texts : List Bytes)
    (rest : Bytes) : mark close (Bytes.join [Byte.comma] (text :: texts) ++ rest) = none := by
  obtain ⟨b, more, rfl, blank, closing⟩ := starts
  have other : ¬ b = close := fun same => closing (same ▸ closes)
  cases texts <;> simp [Bytes.join, List.intercalate_cons_cons, mark_cons blank, other]

/-- **A list is read back**, whether or not it has items. -/
lemma items_join {l : List (Bytes × α)} (each : ∀ p ∈ l, Starts p.1 ∧ Reads item p.1 p.2)
    (closes : close ∈ closings) (rest : Bytes) :
    items item close (Bytes.join [Byte.comma] (l.map (·.1)) ++ close :: rest) =
      some (l.map (·.2), rest) := by
  have blank := (closing_sound close closes).1
  cases l with
  | nil => simp [items, Bytes.join, mark_cons blank]
  | cons p l =>
    have starts : ∀ text ∈ (p :: l).map (·.1), Starts text := by
      intro text ht
      obtain ⟨q, hq, rfl⟩ := List.mem_map.mp ht
      exact (each q hq).1
    have enough : (p :: l).length ≤
        (Bytes.join [Byte.comma] ((p :: l).map (·.1)) ++ close :: rest).length := by
      have shorter := length_le_join starts
      rw [List.length_map] at shorter
      rw [List.length_append]
      omega
    have reads := someItems_join (fun q hq => (each q hq).2) (List.cons_ne_nil _ _) closes enough
      rest
    have unclosed : mark close (Bytes.join [Byte.comma] ((p :: l).map (·.1)) ++ close :: rest) =
        none := mark_join (each p List.mem_cons_self).1 closes _ _
    simp only [items, orElse_apply, bind_apply, unclosed, reads]
    rfl

end Lists

/-! ### Values -/

/-- A line with a value nested at most so deep. -/
structure Denotes (isRaw : UInt8 → Bool) (depth : Nat) (text : Bytes) (v : JsonValue) : Prop where
  line : Byte.lineFeed ∉ text
  starts : Starts text
  reads : ∀ d, depth ≤ d → Reads (value isRaw d) text v

section Values

variable {isRaw : UInt8 → Bool} {escape : UInt8 → Bytes} {s : Bytes} {v : JsonValue} {depth : Nat}

lemma Denotes.mono {deeper : Nat} (h : Denotes isRaw depth text v) (le : depth ≤ deeper) :
    Denotes isRaw deeper text v :=
  ⟨h.line, h.starts, fun d hd => h.reads d (Nat.le_trans le hd)⟩

/-- **A line is read back.** -/
lemma Denotes.read? (h : Denotes isRaw depth text v) (enough : depth ≤ text.length + 1) :
    JsonValue.read? isRaw (text ++ [Byte.lineFeed]) = some v := by
  have ends : Ends [Byte.lineFeed] := ends_cons.mpr (by decide)
  have reads := h.reads (text ++ [Byte.lineFeed]).length (by simpa using enough) _ ends
  rw [JsonValue.read?, reads]
  rfl

lemma flatMap_line (h : ∀ b ∈ s, Escapes isRaw (escape b) b) :
    Byte.lineFeed ∉ s.flatMap escape := by
  intro mem
  obtain ⟨b, hb, inside⟩ := List.mem_flatMap.mp mem
  exact (h b hb).line inside

lemma denotes_string (h : ∀ b ∈ s, Escapes isRaw (escape b) b) :
    Denotes isRaw 1 ([Byte.doubleQuote] ++ s.flatMap escape ++ [Byte.doubleQuote])
      (.string s) := by
  refine ⟨?_, ⟨_, _, rfl, by decide, by decide⟩, fun d hd rest _ => ?_⟩
  · have quote : Byte.lineFeed ≠ Byte.doubleQuote := by decide
    simp [flatMap_line h, quote]
  · obtain ⟨d, rfl⟩ := Nat.exists_eq_add_of_le' hd
    obtain ⟨l, reads, same⟩ := pieces_flatMap h rest
    simp [value_cons isRaw d (b := Byte.doubleQuote) (by decide), reads, same]

lemma ofInt_mem (i : Int) : ∀ b ∈ Bytes.ofInt i, b ∈ ascii "-0123456789" := by
  have digits (n : Nat) : ∀ b ∈ Bytes.ofNat n, b ∈ ascii "-0123456789" := by
    have each : ∀ d < 10, Byte.ofDigit d ∈ ascii "-0123456789" := by decide
    refine ofNat_induction (P := fun _ ds => ∀ b ∈ ds, b ∈ ascii "-0123456789") ?_ ?_ n
    · intro d hd
      simpa using each d hd
    · intro n d _ hd ih b hb
      rcases List.mem_append.mp hb with hb | hb
      · exact ih b hb
      · rw [List.mem_singleton.mp hb]
        exact each d hd
  cases i with
  | ofNat n => exact digits n
  | negSucc n => exact List.forall_mem_cons.mpr ⟨by decide, digits (n + 1)⟩

lemma ofInt_cons (i : Int) : ∃ b more, Bytes.ofInt i = b :: more := by
  cases i with
  | ofNat n =>
    obtain ⟨b, more, text, -⟩ := ofNat_leads n
    exact ⟨b, more, text⟩
  | negSucc n => exact ⟨byte '-', _, rfl⟩

lemma denotes_integer (i : Int) : Denotes isRaw 1 (Bytes.ofInt i) (.number i 0) := by
  have each : ∀ b ∈ ascii "-0123456789", isBlank b = false ∧ b ∉ closings :=
    List.all_iff_forall_prop.mp (by decide)
  obtain ⟨b, more, text⟩ := ofInt_cons i
  have hb : b ∈ ascii "-0123456789" := ofInt_mem i b (text ▸ List.mem_cons_self)
  refine ⟨fun mem => absurd (ofInt_mem i _ mem) (by decide), ⟨b, more, text, each b hb⟩,
    fun d hd rest ends => ?_⟩
  obtain ⟨d, rfl⟩ := Nat.exists_eq_add_of_le' hd
  have reads := number_ofInt i ends
  rw [text, List.cons_append] at reads ⊢
  rw [value_number isRaw d hb, reads]

lemma join_line {texts : List Bytes} (h : ∀ text ∈ texts, Byte.lineFeed ∉ text) :
    Byte.lineFeed ∉ Bytes.join [Byte.comma] texts := by
  induction texts with
  | nil => exact List.not_mem_nil
  | cons text texts ih =>
    obtain ⟨first, more⟩ := List.forall_mem_cons.mp h
    have comma : Byte.lineFeed ≠ Byte.comma := by decide
    cases texts with
    | nil => simpa [Bytes.join] using first
    | cons next texts => simpa [Bytes.join, List.intercalate_cons_cons, first, comma] using ih more

lemma denotes_array {l : List (Bytes × JsonValue)}
    (each : ∀ p ∈ l, Denotes isRaw depth p.1 p.2) :
    Denotes isRaw (depth + 1) (Diagnostic.jsonArray (l.map (·.1))) (.array (l.map (·.2))) := by
  refine ⟨?_, ⟨_, _, rfl, by decide, by decide⟩, fun d hd rest _ => ?_⟩
  · have inside : Byte.lineFeed ∉ Bytes.join [Byte.comma] (l.map (·.1)) :=
      join_line (List.forall_mem_map.mpr fun p hp => (each p hp).line)
    simp +decide [Diagnostic.jsonArray, inside]
  · obtain ⟨d, rfl⟩ := Nat.exists_eq_add_of_le' hd
    have inside : ∀ p ∈ l, Starts p.1 ∧ Reads (value isRaw (d + depth)) p.1 p.2 := fun p hp =>
      ⟨(each p hp).starts, (each p hp).reads _ (Nat.le_add_left _ _)⟩
    have closes : Byte.closeBracket ∈ closings := by decide
    have reads := items_join inside closes rest
    rw [← Nat.add_assoc, Diagnostic.jsonArray]
    simp +decide [value_cons, reads]

/-- The escapes of diagnostics. -/
lemma escapes_escaped (plain : ∀ b, isPlain b → isRaw b) (b : UInt8) :
    Escapes isRaw (Diagnostic.escaped b) b := by
  unfold Diagnostic.escaped
  split
  case h_1 letter found =>
    have each : ∀ p ∈ Diagnostic.shortEscapes, (p.2, p.1) ∈ letters :=
      List.all_iff_forall_prop.mp (by decide)
    obtain ⟨before, behind, all, -⟩ := List.lookup_eq_some_iff.mp found
    exact escapes_letter (each (b, letter) (all ▸ List.mem_append_right _ List.mem_cons_self))
  case h_2 none =>
    have other : b ≠ Byte.doubleQuote ∧ b ≠ Byte.backslash ∧ b ≠ Byte.lineFeed := by
      refine ⟨?_, ?_, ?_⟩ <;> rintro rfl <;> exact absurd none (by decide)
    split
    case isTrue control => exact escapes_unit (UInt8.lt_trans control (by decide))
    case isFalse high =>
      exact escapes_self (plain b (decide_eq_true (UInt8.not_lt.mp high))) other

lemma denotes_quoted (plain : ∀ b, isPlain b → isRaw b) (s : Bytes) :
    Denotes isRaw 1 (Diagnostic.quoted s) (.string s) :=
  denotes_string fun b _ => escapes_escaped plain b

lemma member_quoted (plain : ∀ b, isPlain b → isRaw b) (p : JsonReader JsonValue)
    (name text : Bytes) :
    member isRaw p (Diagnostic.quoted name ++ ascii ":" ++ text) =
      (p text).map fun r => ((name, r.1), r.2) := by
  have colon : isBlank (byte ':') = false := by decide
  obtain ⟨l, reads, same⟩ := @pieces_flatMap isRaw Diagnostic.escaped name
    (fun b _ => escapes_escaped plain b) (byte ':' :: text)
  have written : Diagnostic.quoted name ++ ascii ":" ++ text = Byte.doubleQuote ::
      (name.flatMap Diagnostic.escaped ++ Byte.doubleQuote :: byte ':' :: text) := by
    simp [Diagnostic.quoted, ascii]
  rw [written]
  simp +decide [member, string, mark_cons, reads, same]

lemma denotes_object (plain : ∀ b, isPlain b → isRaw b) {l : List (Bytes × Bytes × JsonValue)}
    (each : ∀ m ∈ l, Denotes isRaw depth m.2.1 m.2.2) :
    Denotes isRaw (depth + 1) (Diagnostic.jsonObject (l.map fun m => (m.1, m.2.1)))
      (.object (l.map fun m => (m.1, m.2.2))) := by
  let texts := l.map fun m => (Diagnostic.quoted m.1 ++ ascii ":" ++ m.2.1, m.1, m.2.2)
  refine ⟨?_, ⟨_, _, rfl, by decide, by decide⟩, fun d hd rest _ => ?_⟩
  · have inside : ∀ p ∈ texts, Byte.lineFeed ∉ p.1 := by
      intro p hp
      obtain ⟨m, hm, rfl⟩ := List.mem_map.mp hp
      have name := (denotes_quoted plain m.1).line
      simp +decide [name, (each m hm).line]
    have all := join_line (List.forall_mem_map.mpr inside)
    simp only [texts, List.map_map, Function.comp_def, List.append_assoc] at all
    simp +decide [Diagnostic.jsonObject, Function.comp_def, all]
  · obtain ⟨d, rfl⟩ := Nat.exists_eq_add_of_le' hd
    have inside : ∀ p ∈ texts, Starts p.1 ∧ Reads (member isRaw (value isRaw (d + depth))) p.1
        p.2 := by
      intro p hp
      obtain ⟨m, hm, rfl⟩ := List.mem_map.mp hp
      refine ⟨⟨_, _, rfl, by decide, by decide⟩, fun rest ends => ?_⟩
      rw [List.append_assoc, member_quoted plain, (each m hm).reads _ (Nat.le_add_left _ _) _ ends]
      rfl
    have closes : Byte.closeBrace ∈ closings := by decide
    have reads := items_join inside closes rest
    simp only [texts, List.map_map, Function.comp_def, List.append_assoc] at reads
    rw [← Nat.add_assoc, Diagnostic.jsonObject]
    simp +decide [value_cons, Function.comp_def, reads]

end Values

end JsonReader

end ModuleLint
