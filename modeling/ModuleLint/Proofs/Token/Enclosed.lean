import ModuleLint.Proofs.Token.Cooked
import ModuleLint.Proofs.Token.Tiling

/-!
Where strings end.

A plain scan finds the end of a string: behind a backslash it skips one byte, or a whole line end,
and it stops at the closing quote. It knows nothing of digits, so the extent of a string is that of
the scan whatever is wrong with the escapes, as long as no escape takes more than digits and braces
behind what the scan skips. Only a braced number can: the byte that breaks it off belongs to it.
-/

namespace ModuleLint

namespace Lexeme

/-- The number of bytes behind a backslash that can neither end a string nor start an escape. -/
def guarded (text : Bytes) : Nat :=
  if headIs (· == Byte.carriageReturn) text && headIs (· == Byte.lineFeed) text.tail then 2 else 1

lemma guarded_lineEnd (rest : Bytes) : guarded (Byte.carriageReturn :: rest) =
    if headIs (· == Byte.lineFeed) rest then 2 else 1 := rfl

lemma guarded_of_ne {b : UInt8} (h : b ≠ Byte.carriageReturn) (rest : Bytes) :
    guarded (b :: rest) = 1 := by
  have other : headIs (· == Byte.carriageReturn) (b :: rest) = false := beq_eq_false_iff_ne.mpr h
  rw [guarded, other, Bool.false_and, if_neg Bool.false_ne_true]

lemma guarded_le (b : UInt8) (rest : Bytes) : guarded (b :: rest) ≤ (b :: rest).length := by
  by_cases ends : b = Byte.carriageReturn
  · subst ends
    rw [guarded_lineEnd]
    cases rest with
    | nil => exact Nat.le_refl 1
    | cons c rest =>
      simp only [List.length_cons]
      split <;> omega
  · rw [guarded_of_ne ends]
    exact Nat.le_add_left _ _

namespace Quote

/-- What stands before the mark that closes a string on its line. -/
def body? (q : Quote) : Bytes → Option Bytes
  | [] => none
  | b :: rest =>
    if b = q.mark then some []
    else if b = Byte.lineFeed then none
    else if b = Byte.backslash then
      (body? q (rest.drop (guarded rest))).map (b :: rest.take (guarded rest) ++ ·)
    else (body? q rest).map (b :: ·)
termination_by text => text.length
decreasing_by all_goals (simp only [List.length_drop, List.length_cons]; omega)

/-- What follows each backslash before the mark that closes a string. -/
def escapes (q : Quote) : Bytes → List Bytes
  | [] => []
  | b :: rest =>
    if b = q.mark then []
    else if b = Byte.backslash then rest :: escapes q (rest.drop (guarded rest))
    else escapes q rest
termination_by text => text.length
decreasing_by all_goals (simp only [List.length_drop, List.length_cons]; omega)

/-- A byte that the scan for the end of a string does not pass over. -/
def minds (q : Quote) (b : UInt8) : Bool := b == q.mark || b == Byte.backslash

/-- The digits at the head of a text, of which a braced number has room for some, end before a byte
that the scan minds. -/
def breaksOffAfter (q : Quote) (room : Nat) (text : Bytes) : Bool :=
  let digits := text.takeWhile fun b => (Byte.hexValue? b).isSome
  decide (digits.length ≤ room) && headIs q.minds (text.drop digits.length)

/-- An escape is a braced number that the closing mark or a backslash breaks off. -/
def breaksOff (q : Quote) (escape : Bytes) : Bool :=
  [byte 'u', Byte.openBrace].isPrefixOf escape && q.breaksOffAfter 6 (escape.drop 2)

/-- Bytes that the scan passes over. -/
def Passes (q : Quote) (w : Bytes) : Prop := ∀ b ∈ w, ¬ q.minds b

variable {q : Quote} {b : UInt8} {w r body rest : Bytes} {room : Nat}

lemma mark_ne_backslash : q.mark ≠ Byte.backslash := by cases q <;> decide

lemma passes_nil : q.Passes [] := List.forall_mem_nil _

lemma Passes.cons (h : ¬ q.minds b) (more : q.Passes w) : q.Passes (b :: w) :=
  List.forall_mem_cons.mpr ⟨h, more⟩

lemma not_minds : ¬ q.minds b ↔ b ≠ q.mark ∧ b ≠ Byte.backslash := by
  simp [minds]

lemma not_minds_digit (h : (Byte.hexValue? b).isSome) : ¬ q.minds b := by
  refine not_minds.mpr ⟨?_, ?_⟩
  · rintro rfl
    cases q <;> cases h
  · rintro rfl
    cases h

lemma breaksOffAfter_digit (h : (Byte.hexValue? b).isSome) :
    q.breaksOffAfter (room + 1) (b :: r) = q.breaksOffAfter room r := by
  unfold breaksOffAfter
  rw [List.takeWhile_cons, if_pos h]
  simp only [List.length_cons, List.drop_succ_cons, Nat.add_le_add_iff_right]

lemma breaksOffAfter_other (h : Byte.hexValue? b = none) :
    q.breaksOffAfter room (b :: r) = q.minds b := by
  unfold breaksOffAfter
  rw [List.takeWhile_cons, h]
  simp [headIs]

/-! ### The scan -/

lemma body?_nil : q.body? [] = none := by rw [body?]

lemma body?_mark : q.body? (q.mark :: r) = some [] := by rw [body?, if_pos rfl]

lemma body?_escape : q.body? (Byte.backslash :: r) =
    (q.body? (r.drop (guarded r))).map (Byte.backslash :: r.take (guarded r) ++ ·) := by
  rw [body?, if_neg mark_ne_backslash.symm, if_neg (by decide), if_pos rfl]

lemma escapes_escape : q.escapes (Byte.backslash :: r) =
    r :: q.escapes (r.drop (guarded r)) := by
  rw [escapes, if_neg mark_ne_backslash.symm, if_pos rfl]

/-- A byte that the scan passes over is no line end if a body is found. -/
lemma body?_cons (h : ¬ q.minds b) (found : q.body? (b :: r) = some body) :
    b ≠ Byte.lineFeed ∧ ∃ body', body = b :: body' ∧ q.body? r = some body' := by
  obtain ⟨noMark, noEscape⟩ := not_minds.mp h
  rw [body?, if_neg noMark] at found
  by_cases feed : b = Byte.lineFeed
  · rw [if_pos feed] at found
    cases found
  · rw [if_neg feed, if_neg noEscape] at found
    obtain ⟨body', found', rfl⟩ := Option.map_eq_some_iff.mp found
    exact ⟨feed, body', rfl, found'⟩

lemma escapes_cons (h : ¬ q.minds b) : q.escapes (b :: r) = q.escapes r := by
  obtain ⟨noMark, noEscape⟩ := not_minds.mp h
  rw [escapes, if_neg noMark, if_neg noEscape]

lemma body?_append (h : q.Passes w) (found : q.body? (w ++ r) = some body) :
    ∃ body', body = w ++ body' ∧ q.body? r = some body' := by
  induction w generalizing body with
  | nil => exact ⟨body, rfl, found⟩
  | cons b w ih =>
    obtain ⟨first, more⟩ := List.forall_mem_cons.mp h
    obtain ⟨-, body', rfl, found'⟩ := body?_cons first found
    obtain ⟨body'', rfl, found''⟩ := ih more found'
    exact ⟨body'', rfl, found''⟩

lemma escapes_append (h : q.Passes w) : q.escapes (w ++ r) = q.escapes r := by
  induction w with
  | nil => rfl
  | cons b w ih =>
    obtain ⟨first, more⟩ := List.forall_mem_cons.mp h
    exact (escapes_cons first).trans (ih more)

/-- What is found is followed by the mark. -/
lemma exists_of_body? (found : q.body? r = some body) : ∃ rest, r = body ++ q.mark :: rest := by
  fun_induction body? q r generalizing body
  case case1 | case3 => cases found
  case case2 =>
    cases found
    exact ⟨_, rfl⟩
  case case4 rest _ _ ih =>
    obtain ⟨body', found', rfl⟩ := Option.map_eq_some_iff.mp found
    obtain ⟨behind, split⟩ := ih found'
    have whole : rest = rest.take (guarded rest) ++ body' ++ q.mark :: behind := by
      rw [List.append_assoc, ← split, List.take_append_drop]
    exact ⟨behind, congrArg (_ :: ·) whole⟩
  case case5 ih =>
    obtain ⟨body', found', rfl⟩ := Option.map_eq_some_iff.mp found
    obtain ⟨behind, split⟩ := ih found'
    exact ⟨behind, congrArg (_ :: ·) split⟩

end Quote

/-! ### What an escape takes -/

/-- A text goes on, behind `read` bytes, with bytes that the scan passes over until there are
`size`. -/
def PassesTo (q : Quote) (read size : Nat) (text : Bytes) : Prop :=
  ∃ w r, text = w ++ r ∧ q.Passes w ∧ size = read + w.length

section Taken

variable {q : Quote} {text rest : Bytes} {b : UInt8} {read value missing room size : Nat}

lemma passesTo_self : PassesTo q size size text := ⟨[], text, rfl, Quote.passes_nil, rfl⟩

lemma PassesTo.cons (h : ¬ q.minds b) (more : PassesTo q (read + 1) size rest) :
    PassesTo q read size (b :: rest) := by
  obtain ⟨w, r, rfl, passes, rfl⟩ := more
  refine ⟨b :: w, r, rfl, passes.cons h, ?_⟩
  rw [List.length_cons]
  omega

namespace Escape

/-- Two digits are taken behind an `x`, or nothing. -/
lemma hex_passes : PassesTo q 1 (hex text).size text := by
  unfold hex
  split
  case h_1 a b rest =>
    split
    case h_1 first second =>
      have isDigit {d : UInt8} {n : Nat} (h : Byte.hexValue? d = some n) : ¬ q.minds d :=
        Quote.not_minds_digit (Option.isSome_iff_exists.mpr ⟨n, h⟩)
      exact .cons (isDigit first) (.cons (isDigit second) passesTo_self)
    case h_2 => exact passesTo_self
  case h_2 => exact passesTo_self

/-- Of four digits those are taken that are there. -/
lemma fixed_passes : PassesTo q read (fixed read value missing text).size text := by
  fun_induction fixed read value missing text
  case case1 | case3 => exact passesTo_self
  case case2 text d digit ih =>
    cases text with
    | nil => cases digit
    | cons b rest =>
      have isDigit : (Byte.hexValue? b).isSome := Option.isSome_iff_exists.mpr ⟨d, digit⟩
      exact .cons (Quote.not_minds_digit isDigit) ih

/-- Behind an opening brace the digits are taken, and one byte more. -/
lemma braced_passes (h : ¬ q.breaksOffAfter room text) :
    PassesTo q read (braced read value room text).size text := by
  fun_induction braced read value room text
  case case1 => exact passesTo_self
  case case2 =>
    have brace : ¬ q.minds Byte.closeBrace := by cases q <;> decide
    exact .cons brace passesTo_self
  case case3 d room digit ih =>
    have isDigit := Option.isSome_iff_exists.mpr ⟨d, digit⟩
    rw [Quote.breaksOffAfter_digit isDigit] at h
    exact .cons (Quote.not_minds_digit isDigit) (ih h)
  case case4 b rest _ full =>
    refine .cons ?_ passesTo_self
    cases digit : Byte.hexValue? b with
    | none => rwa [Quote.breaksOffAfter_other digit] at h
    | some d => exact Quote.not_minds_digit (Option.isSome_iff_exists.mpr ⟨d, digit⟩)

/-- An escape takes what the scan skips and, if it is not broken off, bytes that the scan passes
over. -/
lemma read_passes (h : ¬ q.breaksOff (b :: rest)) :
    PassesTo q (guarded (b :: rest)) (Escape.read (b :: rest)).size
      ((b :: rest).drop (guarded (b :: rest))) := by
  rw [Escape.read]
  by_cases ends : b = Byte.carriageReturn
  · subst ends
    rw [if_neg (by decide), if_pos rfl, guarded_lineEnd]
    exact passesTo_self
  rw [guarded_of_ne ends, if_neg ends, List.drop_one, List.tail_cons]
  split_ifs with feed hex unicode brace
  · exact passesTo_self
  · exact hex_passes
  · obtain ⟨d, text, rfl⟩ : ∃ d text, rest = d :: text := by
      cases rest with
      | nil => cases brace
      | cons d text => exact ⟨d, text, rfl⟩
    obtain rfl : d = Byte.openBrace := beq_iff_eq.mp brace
    subst unicode
    have opens : ¬ q.minds Byte.openBrace := by cases q <;> decide
    exact .cons opens (braced_passes h)
  · exact fixed_passes
  · exact passesTo_self

end Escape

end Taken

/-! ### Where a string ends -/

/-- Behind an escape that is not broken off the scan finds the mark that it finds behind what it
skips. -/
lemma Escape.body?_read {q : Quote} {rest body : Bytes} (whole : ¬ q.breaksOff rest)
    (found : q.body? (rest.drop (guarded rest)) = some body) :
    ∃ body', q.body? (rest.drop (Escape.read rest).size) = some body' ∧
      q.escapes (rest.drop (Escape.read rest).size) = q.escapes (rest.drop (guarded rest)) ∧
      (rest.take (guarded rest)).length + body.length =
        (Escape.read rest).size + body'.length := by
  cases rest with
  | nil =>
    rw [List.drop_nil, Quote.body?_nil] at found
    cases found
  | cons b r =>
    obtain ⟨w, behind, split, passes, taken⟩ := Escape.read_passes whole
    have drop : (b :: r).drop (Escape.read (b :: r)).size = behind := by
      rw [taken, ← List.drop_drop, split, List.drop_left]
    rw [split] at found ⊢
    obtain ⟨body', rfl, found'⟩ := Quote.body?_append passes found
    rw [drop, Quote.escapes_append passes]
    refine ⟨body', found', rfl, ?_⟩
    rw [List.length_take_of_le (guarded_le b r), taken, List.length_append, Nat.add_assoc]

/-- A string without escapes that are broken off reaches to the mark that the scan finds. -/
lemma quotedFrom_encloses {q : Quote} {read : Nat} {text body : Bytes} (string : q ≠ .template)
    (found : q.body? text = some body) (whole : ∀ e ∈ q.escapes text, ¬ q.breaksOff e) :
    (quotedFrom q read text).kind = q.kind ∧
      (quotedFrom q read text).size = read + body.length + 1 := by
  induction length : text.length using Nat.strongRecOn generalizing read text body with
  | ind n ih =>
    subst length
    cases text with
    | nil =>
      rw [Quote.body?_nil] at found
      cases found
    | cons b rest =>
      by_cases escape : b = Byte.backslash
      · subst escape
        rw [Quote.body?_escape] at found
        rw [Quote.escapes_escape] at whole
        obtain ⟨inner, found', rfl⟩ := Option.map_eq_some_iff.mp found
        obtain ⟨first, others⟩ := List.forall_mem_cons.mp whole
        obtain ⟨body', behind, same, lengths⟩ := Escape.body?_read first found'
        rw [← same] at others
        rw [quotedFrom_escape]
        obtain ⟨kind, size⟩ := @ih _ (by rw [List.length_drop, List.length_cons]; omega)
          (read + 1 + (Escape.read rest).size) _ body' behind others rfl
        refine ⟨kind, size.trans ?_⟩
        rw [List.cons_append, List.length_cons, List.length_append]
        omega
      · rw [quotedFrom_cons escape]
        by_cases mark : b = q.mark
        · subst mark
          rw [Quote.body?_mark] at found
          cases found
          rw [if_pos rfl]
          exact ⟨rfl, rfl⟩
        · have plain : ¬ q.minds b := Quote.not_minds.mpr ⟨mark, escape⟩
          obtain ⟨noFeed, body', rfl, found'⟩ := Quote.body?_cons plain found
          rw [Quote.escapes_cons plain] at whole
          rw [if_neg mark, if_neg (not_and_of_not_right _ noFeed),
            if_neg (not_and_of_not_left _ string)]
          obtain ⟨kind, size⟩ := ih rest.length (Nat.lt_succ_self _) found' whole rfl
          exact ⟨kind, size.trans (by rw [List.length_cons]; omega)⟩

end Lexeme

open Lexeme TokenList

/-- **A string ends at its closing quote.** A token that starts with a quote is a string, and ends
with the quote that the scan finds, whatever is wrong with the escapes before it; only a braced
number must not be broken off by the quote itself or by a backslash. -/
theorem Source.string_encloses {s : Source} {before after : List Token} {t : Token} {q : Quote}
    (h : s.tokens.tokens = before ++ t :: after) (string : q ≠ .template)
    (opens : t.lexeme.head? = some q.mark) :
    ∃ front rest, s.content = front ++ q.mark :: rest ∧
      t.span = spanOf s.name (Place.first.after front) t.lexeme ∧
      ∀ body, q.body? rest = some body → (∀ e ∈ q.escapes rest, ¬ q.breaksOff e) →
        t.kind = .string ∧ t.lexeme = q.enclose body := by
  have some : t.lexeme ≠ [] := fun none => by
    rw [none] at opens
    cases opens
  obtain ⟨front, text, b, rest, split, starts, here, -⟩ := tokens_cut h some
  have first : b = q.mark := by
    rw [here] at opens
    exact Option.some.inj ((head?_tokenBytes _ b rest).symm.trans opens)
  subst first
  have whole : text.take (Gap.scan text).size ++ q.mark :: rest = text := by
    rw [← starts, List.take_append_drop]
  refine ⟨front ++ text.take (Gap.scan text).size, rest, ?_, ?_, fun body found escapes => ?_⟩
  · rw [List.append_assoc, whole, split]
  · rw [here, after_append]
    rfl
  · have scan := scan_mark (before.getLast?.map (·.kind)) q rest
    obtain ⟨kind, size⟩ := @quotedFrom_encloses q 1 rest body string found escapes
    obtain ⟨behind, closes⟩ := Quote.exists_of_body? found
    have bytes : tokenBytes (before.getLast?.map (·.kind)) q.mark rest = q.enclose body := by
      have enclosed : q.mark :: rest = q.enclose body ++ behind := by
        rw [closes, Quote.enclose, List.cons_append, List.append_assoc]
        rfl
      rw [tokenBytes, scan, size, enclosed, ← Quote.length_enclose, List.take_left]
    rw [here]
    exact ⟨(congrArg Lexeme.kind scan).trans (kind.trans (Quote.kind_eq_string string)), bytes⟩

/-- Four wrong escapes do not keep `'\xg\u12\u{g\u{1234567}\''` from ending at its quote. -/
theorem Source.string_encloses_malformed :
    let body := ascii "\\xg\\u12\\u\x7bg\\u\x7b1234567\x7d\\'"
    let rest := body ++ ascii "'"
    ∃ t after, (Source.mk (ascii "a.js") (Byte.singleQuote :: rest)).tokens.tokens = t :: after ∧
      t.lexeme.head? = some Quote.single.mark ∧ t.span.start.offset = 0 ∧
      Quote.single.body? rest = some body ∧
      (∀ e ∈ Quote.single.escapes rest, ¬ Quote.single.breaksOff e) ∧
      t.kind = .string ∧ t.lexeme = Quote.single.enclose body := by
  intro body rest
  let t : Token := ⟨.string, ⟨ascii "a.js", ⟨1, 1, 0⟩, ⟨1, 27, 26⟩⟩, Quote.single.enclose body,
    ascii "g\x7d'", false⟩
  let e : Token := ⟨.eof, ⟨ascii "a.js", ⟨1, 27, 26⟩, ⟨1, 27, 26⟩⟩, [], [], false⟩
  have tokens : (Source.mk (ascii "a.js") (Byte.singleQuote :: rest)).tokens.tokens =
      [] ++ t :: [e] := by
    decide +kernel
  have opens : t.lexeme.head? = some Quote.single.mark := rfl
  have found : Quote.single.body? rest = some body := by decide +kernel
  have whole : ∀ e ∈ Quote.single.escapes rest, ¬ Quote.single.breaksOff e := by decide +kernel
  obtain ⟨front, behind, split, span, ends⟩ := Source.string_encloses tokens (by decide) opens
  -- the token starts the text
  have first : front = [] := by
    have offset : (Place.first.after front).offset = front.length := by
      rw [Place.offset_after]
      exact Nat.zero_add _
    have short : front.length ≤ 26 := by
      have lengths : 26 = (front ++ Byte.singleQuote :: behind).length := congrArg List.length split
      rw [List.length_append] at lengths
      omega
    have start : 0 = (Place.first.after front).toPosition.offset.toNat :=
      congrArg (·.start.offset.toNat) span
    rw [Place.offset_toPosition (by omega), offset] at start
    exact List.length_eq_zero_iff.mp start.symm
  subst first
  obtain rfl : rest = behind := (List.cons.inj split).2
  obtain ⟨kind, lexeme⟩ := ends body found whole
  exact ⟨t, [e], tokens, opens, rfl, found, whole, kind, lexeme⟩

/-- In `'\u{';` the escape takes the closing quote, and the string does not end. -/
theorem Source.string_encloses_braced :
    let body := ascii "\\u\x7b"
    let rest := body ++ ascii "';"
    ∃ t after, (Source.mk (ascii "a.js") (Byte.singleQuote :: rest)).tokens.tokens = t :: after ∧
      t.lexeme.head? = some Quote.single.mark ∧ t.span.start.offset = 0 ∧
      Quote.single.body? rest = some body ∧ t.lexeme ≠ Quote.single.enclose body := by
  intro body rest
  let t : Token := ⟨.error, ⟨ascii "a.js", ⟨1, 1, 0⟩, ⟨1, 7, 6⟩⟩, Byte.singleQuote :: rest,
    Byte.singleQuote :: rest, false⟩
  let e : Token := ⟨.eof, ⟨ascii "a.js", ⟨1, 7, 6⟩, ⟨1, 7, 6⟩⟩, [], [], false⟩
  have tokens : (Source.mk (ascii "a.js") (Byte.singleQuote :: rest)).tokens.tokens = [t, e] := by
    decide +kernel
  have found : Quote.single.body? rest = some body := by decide +kernel
  exact ⟨t, [e], tokens, rfl, rfl, found, by decide⟩

end ModuleLint
