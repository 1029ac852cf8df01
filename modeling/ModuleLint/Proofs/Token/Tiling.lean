import Mathlib.Algebra.Ring.Nat
import Mathlib.Data.List.Basic
import ModuleLint.Proofs.Token.Reading
import ModuleLint.Proofs.Token.Scan
import ModuleLint.Proofs.Token.Trivia

/-!
Tokens and gaps tile a text.

Each token stands for a piece of the text, and what lies between two pieces is a gap. The tiling of
what is left of a text grows at its front as the scanner returns; in a text of fewer than `2 ^ 32`
bytes every recorded offset is the true one.
-/

namespace ModuleLint

/-! ### Places -/

@[simp] lemma Place.offset_step (p : Place) (b : UInt8) : (p.step b).offset = p.offset + 1 := by
  unfold step
  split <;> rfl

@[simp] lemma Place.offset_after (p : Place) (text : Bytes) :
    (p.after text).offset = p.offset + text.length := by
  unfold after
  induction text generalizing p with
  | nil => rfl
  | cons b text ih =>
    rw [List.foldl_cons, ih, offset_step, List.length_cons]
    omega

/-- An offset below the bound of its word is recorded as it is. -/
lemma Place.offset_toPosition {p : Place} (h : p.offset < 2 ^ 32) :
    p.toPosition.offset.toNat = p.offset := by
  change p.offset.toUInt32.toNat = _
  rw [UInt32.toNat_ofNat', Nat.mod_eq_of_lt h]

namespace Token

/-- The offset of the first byte. -/
def startsAt (t : Token) : Nat := t.span.start.offset.toNat

/-- The offset behind the last byte. -/
def stopsAt (t : Token) : Nat := t.span.stop.offset.toNat

end Token

namespace TokenList

/-! ### Tilings -/

/-- What stands before a token: blanks and whole comments. Before the end of the text a comment that
is never closed may follow them, and is an error. -/
def GapBefore (faults : List LexicalFault) (t : Token) (gap behind : Bytes) : Prop :=
  Gap.Trivia behind gap ∨
    t.kind = .eof ∧ ∃ closed comment, gap = closed ++ comment ∧ Gap.Trivia comment closed ∧
      Gap.Unclosed comment ∧ ∃ f ∈ faults, f.error = .unterminatedComment

/-- A token for some bytes of a text. -/
structure Stands (faults : List LexicalFault) (t : Token) (offset : Nat) (bytes : Bytes) :
    Prop where
  start : t.startsAt = offset
  stop : t.stopsAt = offset + bytes.length
  lexeme : t.lexeme = bytes
  kind : t.kind = .eof ↔ bytes = []
  fault : t.kind = .error → ∃ f ∈ faults, f.span = t.span

/-- The tokens of a text that starts at an offset. -/
inductive Tiles (faults : List LexicalFault) : Nat → Bytes → List Token → Prop
  | last {offset : Nat} {gap : Bytes} {t : Token} (before : GapBefore faults t gap [])
    (stands : Stands faults t (offset + gap.length) []) : Tiles faults offset gap [t]
  | token {offset : Nat} {gap bytes rest : Bytes} {t : Token} {more : List Token}
    (before : GapBefore faults t gap (bytes ++ rest)) (some : bytes ≠ [])
    (stands : Stands faults t (offset + gap.length) bytes)
    (behind : Tiles faults (offset + gap.length + bytes.length) rest more) :
    Tiles faults offset (gap ++ bytes ++ rest) (t :: more)

section Faults

variable {faults faults' : List LexicalFault} {t : Token}

lemma GapBefore.mono {gap behind : Bytes} (h : GapBefore faults t gap behind)
    (sub : faults ⊆ faults') : GapBefore faults' t gap behind := by
  refine h.imp id fun ⟨hk, closed, comment, split, trivia, never, f, hf, he⟩ => ?_
  exact ⟨hk, closed, comment, split, trivia, never, f, sub hf, he⟩

lemma Stands.mono {offset : Nat} {bytes : Bytes} (h : Stands faults t offset bytes)
    (sub : faults ⊆ faults') : Stands faults' t offset bytes := by
  refine ⟨h.start, h.stop, h.lexeme, h.kind, fun hk => ?_⟩
  obtain ⟨f, hf, span⟩ := h.fault hk
  exact ⟨f, sub hf, span⟩

lemma Tiles.mono {offset : Nat} {text : Bytes} {l : List Token} (h : Tiles faults offset text l)
    (sub : faults ⊆ faults') : Tiles faults' offset text l := by
  induction h with
  | last before stands => exact .last (before.mono sub) (stands.mono sub)
  | token before some stands _ ih => exact .token (before.mono sub) some (stands.mono sub) ih

end Faults

/-! ### The tiling that is scanned -/

section Scanned

variable {file : Bytes} {previous : Option TokenKind} {place : Place} {text rest : Bytes}
  {b : UInt8}

lemma offset_gapEnd (place : Place) (text : Bytes) :
    (gapEnd place text).offset = place.offset + (text.take (Gap.scan text).size).length :=
  Place.offset_after _ _

lemma startsAt_spanOf {t : Token} {bytes : Bytes} (h : t.span = spanOf file place bytes)
    (small : place.offset + bytes.length < 2 ^ 32) :
    t.startsAt = place.offset ∧ t.stopsAt = place.offset + bytes.length := by
  unfold Token.startsAt Token.stopsAt
  rw [h]
  refine ⟨Place.offset_toPosition (by omega), ?_⟩
  have stop : (place.after bytes).offset < 2 ^ 32 := by
    rw [Place.offset_after]
    exact small
  exact (Place.offset_toPosition stop).trans (Place.offset_after _ _)

lemma end_tiles (h : text.drop (Gap.scan text).size = [])
    (small : place.offset + text.length < 2 ^ 32) :
    Tiles (gapFaults file place (Gap.scan text) text) place.offset text
      [endToken file place text] := by
  have whole : text.take (Gap.scan text).size = text :=
    List.take_of_length_le (List.drop_eq_nil_iff.mp h)
  have offset : (gapEnd place text).offset = place.offset + text.length := by
    rw [offset_gapEnd, whole]
  obtain ⟨start, stop⟩ := @startsAt_spanOf file (gapEnd place text) (endToken file place text) []
    rfl (by rw [offset]; exact small)
  refine .last ?_ ⟨start.trans offset, stop.trans (congrArg (· + 0) offset), rfl, ?_, nofun⟩
  · rcases Gap.scan_trivia text with ⟨-, trivia⟩ | ⟨gap, comment, split, trivia, never, -, open_⟩
    · rw [h, whole] at trivia
      exact .inl trivia
    · refine .inr ⟨rfl, gap, comment, split, trivia, never, ?_⟩
      unfold gapFaults
      rw [open_]
      exact ⟨_, List.mem_singleton_self _, rfl⟩
  · exact ⟨fun _ => rfl, fun _ => rfl⟩

lemma tokenBytes_append (previous : Option TokenKind) (b : UInt8) (rest : Bytes) :
    tokenBytes previous b rest ++ tokenRest previous b rest = b :: rest := by
  have positive : 0 < (Lexeme.scan previous b rest).size := (Lexeme.scan_sound previous b rest).size
  obtain ⟨n, hn⟩ : ∃ n, (Lexeme.scan previous b rest).size = n + 1 :=
    ⟨_, (Nat.succ_pred_eq_of_pos positive).symm⟩
  unfold tokenBytes tokenRest
  rw [hn, List.take_succ_cons, Nat.add_sub_cancel, List.cons_append, List.take_append_drop]

/-- A text is a gap, a token, and what follows it. -/
lemma split_token (previous : Option TokenKind) (h : text.drop (Gap.scan text).size = b :: rest) :
    text.take (Gap.scan text).size ++ tokenBytes previous b rest ++ tokenRest previous b rest =
      text := by
  rw [List.append_assoc, tokenBytes_append, ← h, List.take_append_drop]

lemma tokenBytes_ne_nil (previous : Option TokenKind) (b : UInt8) (rest : Bytes) :
    tokenBytes previous b rest ≠ [] := by
  have positive : 0 < (Lexeme.scan previous b rest).size := (Lexeme.scan_sound previous b rest).size
  unfold tokenBytes
  rw [ne_eq, List.take_eq_nil_iff]
  rintro (none | none)
  · omega
  · cases none

/-- A token starts with the byte that it was read at. -/
lemma head?_tokenBytes (previous : Option TokenKind) (b : UInt8) (rest : Bytes) :
    (tokenBytes previous b rest).head? = some b := by
  have positive : 0 < (Lexeme.scan previous b rest).size := (Lexeme.scan_sound previous b rest).size
  rw [tokenBytes, List.head?_take, if_neg (by omega)]
  rfl

lemma nextToken_stands
    (small : (gapEnd place text).offset + (tokenBytes previous b rest).length < 2 ^ 32) :
    Stands (nextFaults file previous place text b rest) (nextToken file previous place text b rest)
      (gapEnd place text).offset (tokenBytes previous b rest) := by
  have sound := Lexeme.scan_sound previous b rest
  obtain ⟨start, stop⟩ := @startsAt_spanOf file _ (nextToken file previous place text b rest) _ rfl
    small
  refine ⟨start, stop, rfl, ?_, fun hk => ?_⟩
  · have some := tokenBytes_ne_nil previous b rest
    exact ⟨fun hk => absurd hk sound.kind, fun none => absurd none some⟩
  · obtain ⟨error, he⟩ := sound.error hk
    exact ⟨_, List.mem_map_of_mem he, rfl⟩

lemma trivia_before (h : text.drop (Gap.scan text).size = b :: rest) :
    Gap.Trivia (b :: rest) (text.take (Gap.scan text).size) := by
  rcases Gap.scan_trivia text with ⟨-, trivia⟩ | ⟨-, -, -, -, -, size, -⟩
  · rw [h] at trivia
    exact trivia
  · rw [size, List.drop_length] at h
    cases h

lemma scanFrom_tiles (file : Bytes) (previous : Option TokenKind) (place : Place) (text : Bytes) :
    place.offset + text.length < 2 ^ 32 →
      Tiles (scanFrom file previous place text).faults place.offset text
        (scanFrom file previous place text).tokens := by
  refine scanFrom_induction (P := fun previous place text =>
    place.offset + text.length < 2 ^ 32 →
      Tiles (scanFrom file previous place text).faults place.offset text
        (scanFrom file previous place text).tokens) ?_ ?_ previous place text
  · intro previous place text h small
    rw [scanFrom_end h]
    exact end_tiles h small
  · intro previous place text b rest h ih small
    have split := split_token previous h
    have lengths := congrArg List.length split
    rw [List.length_append, List.length_append] at lengths
    have start := offset_gapEnd place text
    have stop : (tokenEnd previous place text b rest).offset =
        (gapEnd place text).offset + (tokenBytes previous b rest).length := Place.offset_after _ _
    have gap := trivia_before h
    rw [← tokenBytes_append previous b rest] at gap
    have stands := @nextToken_stands file previous place text rest b (by omega)
    have behind := ih (by omega)
    rw [scanFrom_token h]
    rw [stop, start] at behind
    rw [start] at stands
    have tiles : Tiles ((gapFaults file place (Gap.scan text) text ++
          nextFaults file previous place text b rest) ++
        (afterToken file previous place text b rest).faults) place.offset
        (text.take (Gap.scan text).size ++ tokenBytes previous b rest ++ tokenRest previous b rest)
        (nextToken file previous place text b rest ::
          (afterToken file previous place text b rest).tokens) := by
      refine .token (.inl gap) (tokenBytes_ne_nil previous b rest) (stands.mono ?_)
        (behind.mono (List.subset_append_right _ _))
      rw [List.append_assoc]
      exact List.Subset.trans (List.subset_append_left _ _) (List.subset_append_right _ _)
    rw [split] at tiles
    exact tiles

end Scanned

/-! ### What a tiling says -/

/-- The offset behind some tokens of a text that starts at an offset. -/
def endOf (offset : Nat) : List Token → Nat
  | [] => offset
  | t :: before => endOf t.stopsAt before

/-- A token stands for a piece of a text, with a gap between it and the tokens before it. -/
structure Placed (faults : List LexicalFault) (offset : Nat) (text : Bytes) (before : List Token)
    (t : Token) (front gap bytes rest : Bytes) : Prop where
  pieces : text = front ++ gap ++ bytes ++ rest
  begins : endOf offset before = offset + front.length
  between : GapBefore faults t gap (bytes ++ rest)
  stands : Stands faults t (offset + front.length + gap.length) bytes
  final : t.kind = .eof → rest = []

section Tilings

variable {faults : List LexicalFault} {offset : Nat} {text : Bytes} {l : List Token}

lemma Tiles.ne_nil (h : Tiles faults offset text l) : l ≠ [] := by
  cases h <;> exact List.cons_ne_nil _ _

lemma Tiles.placed (h : Tiles faults offset text l) {before after : List Token} {t : Token}
    (split : l = before ++ t :: after) :
    (t.kind = .eof ↔ after = []) ∧
      ∃ front gap bytes rest, Placed faults offset text before t front gap bytes rest := by
  induction h generalizing before with
  | @last offset gap u gapBefore stands =>
    cases before with
    | nil =>
      cases split
      refine ⟨⟨fun _ => rfl, fun _ => stands.kind.mpr rfl⟩, [], gap, [], [], ?_⟩
      exact ⟨by simp, rfl, gapBefore, stands, fun _ => rfl⟩
    | cons v before =>
      have none := (List.cons.inj split).2
      simp at none
  | @token offset gap bytes rest u more gapBefore some stands behind ih =>
    have proper : u.kind ≠ .eof := fun hk => some (stands.kind.mp hk)
    cases before with
    | nil =>
      cases split
      refine ⟨⟨fun hk => absurd hk proper, fun none => absurd none behind.ne_nil⟩, ?_⟩
      refine ⟨[], gap, bytes, rest, rfl, rfl, gapBefore, stands, fun hk => absurd hk proper⟩
    | cons v before =>
      obtain ⟨rfl, split'⟩ := List.cons.inj split
      obtain ⟨final, front, gap', bytes', rest', placed⟩ := ih split'
      have length : (gap ++ bytes ++ front).length = gap.length + bytes.length + front.length := by
        rw [List.length_append, List.length_append]
      refine ⟨final, gap ++ bytes ++ front, gap', bytes', rest', ?_, ?_, placed.between, ?_,
        placed.final⟩
      · rw [placed.pieces]
        simp only [List.append_assoc]
      · rw [endOf, stands.stop, placed.begins, length]
        omega
      · have stands' := placed.stands
        rw [show offset + (gap ++ bytes ++ front).length + gap'.length =
          offset + gap.length + bytes.length + front.length + gap'.length by rw [length]; omega]
        exact stands'

lemma Tiles.ordered (h : Tiles faults offset text l) :
    (∀ t ∈ l, offset ≤ t.startsAt) ∧ l.Pairwise fun a b => a.stopsAt ≤ b.startsAt := by
  induction h with
  | @last offset gap t gapBefore stands =>
    have start := stands.start
    exact ⟨List.forall_mem_singleton.mpr (by omega), List.pairwise_singleton _ _⟩
  | @token offset gap bytes rest t more gapBefore some stands behind ih =>
    obtain ⟨later, ordered⟩ := ih
    have start := stands.start
    have stop := stands.stop
    refine ⟨List.forall_mem_cons.mpr ⟨by omega, fun u hu => ?_⟩, .cons (fun u hu => ?_) ordered⟩
    · have after := later u hu
      omega
    · rw [stop]
      exact later u hu

end Tilings

/-! ### The tokens from one of them on -/

section Suffixes

variable {file : Bytes} {previous : Option TokenKind} {place : Place} {text : Bytes}
  {before after : List Token} {t : Token}

lemma after_append (place : Place) (a b : Bytes) : place.after (a ++ b) = (place.after a).after b :=
  List.foldl_append

/-- The tokens from one of them on are those of the rest of the text, behind the kind of the token
before it. -/
lemma scanFrom_suffix (h : (scanFrom file previous place text).tokens = before ++ after)
    (some : after ≠ []) :
    ∃ front rest, text = front ++ rest ∧
      after = (scanFrom file ((before.getLast?.map (·.kind)).or previous) (place.after front)
        rest).tokens := by
  induction before generalizing previous place text with
  | nil => exact ⟨[], text, rfl, h.symm⟩
  | cons t before ih =>
    cases starts : text.drop (Gap.scan text).size with
    | nil =>
      rw [scanFrom_end starts] at h
      exact absurd (List.append_eq_nil_iff.mp (List.cons.inj h).2.symm).2 some
    | cons b rest =>
      rw [scanFrom_token starts] at h
      obtain ⟨rfl, behind⟩ := List.cons.inj h
      obtain ⟨front, rest', split, rfl⟩ := ih behind
      refine ⟨text.take (Gap.scan text).size ++ tokenBytes previous b rest ++ front, rest', ?_, ?_⟩
      · rw [List.append_assoc, ← split, split_token previous starts]
      · rw [after_append, after_append, List.getLast?_cons]
        cases before.getLast? <;> rfl

/-- A token of some bytes was read behind the kind of the token before it, and so were the tokens
that follow it. -/
lemma scanFrom_cut (h : (scanFrom file previous place text).tokens = before ++ t :: after)
    (some : t.lexeme ≠ []) :
    let previous := (before.getLast?.map (·.kind)).or previous
    ∃ front text' b rest, text = front ++ text' ∧ text'.drop (Gap.scan text').size = b :: rest ∧
      t = nextToken file previous (place.after front) text' b rest ∧
      after = (afterToken file previous (place.after front) text' b rest).tokens := by
  obtain ⟨front, text', split, same⟩ := scanFrom_suffix h (List.cons_ne_nil t after)
  cases starts : text'.drop (Gap.scan text').size with
  | nil =>
    rw [scanFrom_end starts] at same
    exact absurd (congrArg Token.lexeme (List.cons.inj same).1) some
  | cons b rest =>
    rw [scanFrom_token starts] at same
    obtain ⟨here, behind⟩ := List.cons.inj same
    exact ⟨front, text', b, rest, split, starts, here, behind⟩

end Suffixes

end TokenList

/-! ### Sources -/

namespace Source

open TokenList

/-- A token of some bytes in a source. -/
lemma tokens_cut {s : Source} {before after : List Token} {t : Token}
    (h : s.tokens.tokens = before ++ t :: after) (some : t.lexeme ≠ []) :
    ∃ front text b rest, s.content = front ++ text ∧ text.drop (Gap.scan text).size = b :: rest ∧
      t = nextToken s.name (before.getLast?.map (·.kind)) (Place.first.after front) text b rest ∧
      after = (afterToken s.name (before.getLast?.map (·.kind)) (Place.first.after front) text b
        rest).tokens := by
  have cut := scanFrom_cut h some
  rw [Option.or_none] at cut
  exact cut

/-- The piece of a text between two others. -/
lemma slice_piece {s : Source} {front piece rest : Bytes} (h : s.content = front ++ piece ++ rest) :
    s.slice front.length (front.length + piece.length) = piece := by
  rw [slice, if_neg (by omega), h, ← List.length_append, List.take_left, List.drop_left]

lemma tokens_tiles {s : Source} (small : s.length < 2 ^ 32) :
    Tiles s.tokens.faults 0 s.content s.tokens.tokens := by
  refine scanFrom_tiles s.name none .first s.content ?_
  change 0 + s.length < _
  omega

/-- **No byte of a text is lost.** The tokens of a source of fewer than `2 ^ 32` bytes are in order
and end with the only end of the text. Each of them is the piece of the text between its offsets,
and before it there are only blanks and comments. A token that could not be read has an error over
the same span. -/
theorem tokens_tile (s : Source) (small : s.length < 2 ^ 32) :
    s.tokens.tokens ≠ [] ∧
    s.tokens.tokens.Pairwise (fun a b => a.stopsAt ≤ b.startsAt) ∧
    (∀ before t after, s.tokens.tokens = before ++ t :: after →
      (t.kind = .eof ↔ after = []) ∧
      (t.kind = .eof → t.startsAt = s.length ∧ t.stopsAt = s.length ∧ t.lexeme = []) ∧
      (t.kind ≠ .eof → t.startsAt < t.stopsAt ∧ t.stopsAt ≤ s.length) ∧
      t.lexeme = s.slice t.startsAt t.stopsAt ∧
      endOf 0 before ≤ t.startsAt ∧
      GapBefore s.tokens.faults t (s.slice (endOf 0 before) t.startsAt)
        (s.content.drop t.startsAt)) ∧
    (∀ t ∈ s.tokens.tokens, t.kind = .error → ∃ f ∈ s.tokens.faults, f.span = t.span) ∧
    (s.tokens.faults = [] → ∀ t ∈ s.tokens.tokens, t.kind ≠ .error) := by
  have tiles := tokens_tiles small
  have faulty : ∀ t ∈ s.tokens.tokens, t.kind = .error →
      ∃ f ∈ s.tokens.faults, f.span = t.span := by
    intro t ht
    obtain ⟨before, after, split⟩ := List.append_of_mem ht
    obtain ⟨-, front, gap, bytes, rest, placed⟩ := tiles.placed split
    exact placed.stands.fault
  refine ⟨tiles.ne_nil, tiles.ordered.2, fun before t after split => ?_, faulty, ?_⟩
  · obtain ⟨final, front, gap, bytes, rest, placed⟩ := tiles.placed split
    have text := placed.pieces
    have length : s.length = front.length + gap.length + bytes.length + rest.length := by
      rw [Source.length, text]
      simp only [List.length_append]
    have start : t.startsAt = front.length + gap.length := by
      rw [placed.stands.start, Nat.zero_add]
    have stop : t.stopsAt = front.length + gap.length + bytes.length := by
      rw [placed.stands.stop, Nat.zero_add]
    have before' : endOf 0 before = front.length := by
      rw [placed.begins, Nat.zero_add]
    refine ⟨final, fun hk => ?_, fun hk => ?_, ?_, ?_, ?_⟩
    · have noBytes := placed.stands.kind.mp hk
      have noRest := placed.final hk
      subst noBytes noRest
      simp only [List.length_nil] at length stop
      exact ⟨by omega, by omega, placed.stands.lexeme⟩
    · have some : bytes ≠ [] := fun none => hk (placed.stands.kind.mpr none)
      have positive := List.length_pos_iff.mpr some
      exact ⟨by omega, by omega⟩
    · rw [placed.stands.lexeme, start, stop, ← List.length_append]
      exact (slice_piece text).symm
    · rw [before', start]
      exact Nat.le_add_right _ _
    · rw [before', start, slice_piece (text.trans (List.append_assoc _ _ _))]
      have behind : s.content.drop (front.length + gap.length) = bytes ++ rest := by
        rw [text, List.append_assoc, ← List.length_append, List.drop_left]
      rw [behind]
      exact placed.between
  · intro none t ht hk
    obtain ⟨f, hf, -⟩ := faulty t ht hk
    rw [none] at hf
    cases hf

/-- The text `a /*`: before its end stands a comment that is never closed. -/
theorem tokens_tile_unclosed :
    let s : Source := ⟨[], ascii "a /*"⟩
    s.length < 2 ^ 32 ∧ ∃ a e, s.tokens.tokens = [a, e] ∧ a.lexeme = ascii "a" ∧
      e.kind = .eof ∧ GapBefore s.tokens.faults e (ascii " /*") [] := by
  intro s
  have small : s.length < 2 ^ 32 := by decide
  have two : s.tokens.tokens.length = 2 := by decide +kernel
  have places : s.tokens.tokens.map (fun t => (t.startsAt, t.stopsAt)) = [(0, 1), (4, 4)] := by
    decide +kernel
  obtain ⟨a, e, h⟩ := List.length_eq_two.mp two
  obtain ⟨-, -, each, -⟩ := s.tokens_tile small
  obtain ⟨-, -, -, lexeme, -, -⟩ := each [] a [e] h
  obtain ⟨final, -, -, -, -, gap⟩ := each [a] e [] h
  rw [h] at places
  obtain ⟨⟨startA, stopA⟩, startE, -⟩ : (a.startsAt = 0 ∧ a.stopsAt = 1) ∧ e.startsAt = 4 ∧
      e.stopsAt = 4 := by simpa using places
  rw [startA, stopA] at lexeme
  rw [endOf, endOf, stopA, startE] at gap
  exact ⟨small, a, e, h, lexeme, final.mpr rfl, gap⟩

end Source

end ModuleLint
