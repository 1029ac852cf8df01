import Mathlib.Tactic.Common
import ModuleLint.Proofs.Token.Tiling

/-!
Where tokens stand, and the line feeds between them.

Spans are recorded in words, so in a source of any size a token is placed by the bytes before it.
The scanner notes a line feed wherever in a gap it passes one: among blanks, behind a line comment
and inside a block comment, also one that is never closed.
-/

namespace ModuleLint

/-! ### Line feeds in a gap -/

namespace Gap

/-- A gap knows whether it holds a line feed. -/
def Counted (text : Bytes) (g : Gap) : Prop := g.newline ↔ Byte.lineFeed ∈ text.take g.size

/-- A step over bytes that are no line feeds. -/
lemma Counted.after {text : Bytes} {g : Gap} (h : Counted text g) {passed : Bytes}
    (noFeed : Byte.lineFeed ∉ passed) : Counted (passed ++ text) (g.after passed.length) := by
  unfold Counted Gap.after at *
  rw [Nat.add_comm, List.take_length_add_append, List.mem_append]
  exact h.trans (or_iff_right noFeed).symm

/-- A step over a line feed. -/
lemma counted_afterNewline (text : Bytes) (g : Gap) :
    Counted (Byte.lineFeed :: text) g.afterNewline := by
  simp [Counted, afterNewline]

/-- Wherever a scan starts, it sees the line feeds of the rest of the gap and no others. -/
lemma scanFrom_counted (w : Within) (text : Bytes) : Counted text (scanFrom w text) := by
  fun_induction scanFrom w text with
  | case1 rest ih => exact @Counted.after _ _ ih [Byte.slash, Byte.slash] (by decide)
  | case2 rest ih => exact @Counted.after _ _ ih [Byte.slash, Byte.star] (by decide)
  | case10 read rest ih => exact @Counted.after _ _ ih [Byte.star, Byte.slash] (by decide)
  | case3 | case7 | case11 => exact counted_afterNewline _ _
  | case4 b rest _ _ noFeed _ ih | case8 b rest noFeed ih | case12 read b rest _ _ noFeed ih =>
    exact @Counted.after _ _ ih [b] (by simpa using Ne.symm noFeed)
  | case5 | case6 | case9 | case13 => simp [Counted, empty]

end Gap

open TokenList

namespace Source

/-! ### Where a token stands -/

/-- A source, cut behind some of its tokens. -/
structure CutBehind (s : Source) (before : List Token) (front text : Bytes) : Prop where
  content : s.content = front ++ text
  first : before = [] → front = []
  behind : ∀ u ∈ before.getLast?, u.lexeme <:+ front ∧
    u.span.stop = (Place.first.after front).toPosition

/-- A token where it stands in a source of any size: behind the tokens before it and a gap. The span
on record is that of its bytes there. -/
structure HoldsAt (s : Source) (before : List Token) (t : Token) (front gap rest : Bytes) : Prop
    extends s.CutBehind before front (gap ++ (t.lexeme ++ rest)) where
  span : t.span = spanOf s.name (Place.first.after (front ++ gap)) t.lexeme
  last : t.lexeme = [] → rest = []

section Standing

variable {s : Source} {before after : List Token} {t : Token} {front text rest : Bytes} {b : UInt8}
  {previous : Option TokenKind}

lemma exists_cutBehind (h : s.tokens.tokens = before ++ t :: after) :
    ∃ front text, s.CutBehind before front text ∧
      t :: after = (scanFrom s.name (before.getLast?.map (·.kind)) (Place.first.after front)
        text).tokens := by
  rcases before.eq_nil_or_concat with rfl | ⟨before, u, rfl⟩
  · exact ⟨[], s.content, ⟨rfl, fun _ => rfl, by simp⟩, h.symm⟩
  · rw [List.concat_eq_append, List.append_assoc] at h
    obtain ⟨front, text, split, same⟩ := scanFrom_suffix h (List.cons_ne_nil _ _)
    cases starts : text.drop (Gap.scan text).size with
    | nil =>
      rw [scanFrom_end starts] at same
      cases same
    | cons b rest =>
      rw [scanFrom_token starts] at same
      obtain ⟨here, behind⟩ := List.cons.inj same
      generalize (before.getLast?.map (·.kind)).or none = previous at here behind
      have whole := split_token previous starts
      have place : Place.first.after
          (front ++ text.take (Gap.scan text).size ++ tokenBytes previous b rest) =
            tokenEnd previous (Place.first.after front) text b rest := by
        rw [after_append, after_append]
        rfl
      refine ⟨front ++ text.take (Gap.scan text).size ++ tokenBytes previous b rest,
        tokenRest previous b rest, ⟨?_, by simp, ?_⟩, ?_⟩
      · rw [split]
        simpa only [List.append_assoc] using congrArg (front ++ ·) whole.symm
      · simp only [List.concat_eq_append, List.getLast?_concat, Option.mem_some_iff]
        rintro _ rfl
        rw [here, place]
        exact ⟨List.suffix_append _ _, rfl⟩
      · rw [place, List.concat_eq_append, List.getLast?_concat, here]
        exact behind

lemma CutBehind.holdsAt_end (h : s.CutBehind before front text)
    (ends : text.drop (Gap.scan text).size = []) :
    s.HoldsAt before (endToken s.name (Place.first.after front) text) front
      (text.take (Gap.scan text).size) [] where
  content := by simp [h.content, endToken, List.take_of_length_le (List.drop_eq_nil_iff.mp ends)]
  first := h.first
  behind := h.behind
  span := by rw [after_append]; rfl
  last _ := rfl

lemma CutBehind.holdsAt_token (h : s.CutBehind before front text)
    (starts : text.drop (Gap.scan text).size = b :: rest) :
    s.HoldsAt before (nextToken s.name previous (Place.first.after front) text b rest) front
      (text.take (Gap.scan text).size) (tokenRest previous b rest) where
  content := by
    have whole := split_token previous starts
    rw [List.append_assoc] at whole
    exact h.content.trans (congrArg (front ++ ·) whole.symm)
  first := h.first
  behind := h.behind
  span := by rw [after_append]; rfl
  last none := absurd none (tokenBytes_ne_nil previous b rest)

/-- Every token of a source is its end, or is read at the first byte behind a gap. -/
lemma tokens_at (h : s.tokens.tokens = before ++ t :: after) :
    ∃ front text, s.CutBehind before front text ∧
      ((text.drop (Gap.scan text).size = [] ∧
          t = endToken s.name (Place.first.after front) text) ∨
        ∃ b rest, text.drop (Gap.scan text).size = b :: rest ∧
          t = nextToken s.name (before.getLast?.map (·.kind)) (Place.first.after front) text b
            rest) := by
  obtain ⟨front, text, cut, same⟩ := exists_cutBehind h
  refine ⟨front, text, cut, ?_⟩
  cases starts : text.drop (Gap.scan text).size with
  | nil =>
    rw [scanFrom_end starts] at same
    exact .inl ⟨rfl, (List.cons.inj same).1⟩
  | cons b rest =>
    rw [scanFrom_token starts] at same
    exact .inr ⟨b, rest, rfl, (List.cons.inj same).1⟩

lemma exists_holdsAt (h : s.tokens.tokens = before ++ t :: after) :
    ∃ front gap rest, s.HoldsAt before t front gap rest := by
  obtain ⟨front, text, cut, ⟨ends, rfl⟩ | ⟨b, rest, starts, rfl⟩⟩ := tokens_at h
  · exact ⟨_, _, _, cut.holdsAt_end ends⟩
  · exact ⟨_, _, _, cut.holdsAt_token starts⟩

lemma HoldsAt.length_eq {gap : Bytes} (h : s.HoldsAt before t front gap rest) :
    front.length + gap.length + t.lexeme.length + rest.length = s.length := by
  have size := congrArg List.length h.content
  simp only [List.length_append] at size
  unfold length
  omega

end Standing

/-! ### Line feeds before a token -/

/-- **A token knows whether a line feed stands before it.** The mark of a token says whether there
is a line feed between the end of the token before it, or the start of the source, and its own
start. -/
theorem newlineBefore_iff {s : Source} {before after : List Token} {t : Token}
    (h : s.tokens.tokens = before ++ t :: after) :
    ∃ front gap rest, s.HoldsAt before t front gap rest ∧
      (t.newlineBefore ↔ Byte.lineFeed ∈ gap) := by
  obtain ⟨front, text, cut, ⟨ends, rfl⟩ | ⟨b, rest, starts, rfl⟩⟩ := tokens_at h
  · exact ⟨_, _, _, cut.holdsAt_end ends, Gap.scanFrom_counted .blanks text⟩
  · exact ⟨_, _, _, cut.holdsAt_token starts, Gap.scanFrom_counted .blanks text⟩

/-- The comment before the template in this source holds a line feed. The one in the template does
not count for `b`, and the one in the comment that is never closed counts for the end. -/
theorem newlineBefore_iff_template :
    let s : Source := ⟨ascii "a.js", ascii "a /*\n*/ `\n` b /*\n"⟩
    ∃ a t b e, s.tokens.tokens = [a, t, b, e] ∧
      (∃ front gap rest, s.HoldsAt [a] t front gap rest ∧ Byte.lineFeed ∈ gap) ∧
      (∃ front gap rest, s.HoldsAt [a, t] b front gap rest ∧ Byte.lineFeed ∉ gap) ∧
      ∃ front gap rest, s.HoldsAt [a, t, b] e front gap rest ∧ Byte.lineFeed ∈ gap := by
  intro s
  have marks : s.tokens.tokens.map (·.newlineBefore) = [false, true, false, true] := by
    decide +kernel
  obtain ⟨a, rest, h, -, marks⟩ := List.map_eq_cons_iff.mp marks
  obtain ⟨t, rest, rfl, ht, marks⟩ := List.map_eq_cons_iff.mp marks
  obtain ⟨b, rest, rfl, hb, marks⟩ := List.map_eq_cons_iff.mp marks
  obtain ⟨e, rest, rfl, he, marks⟩ := List.map_eq_cons_iff.mp marks
  obtain rfl := List.map_eq_nil_iff.mp marks
  obtain ⟨front, gap, behind, stands, mark⟩ := @newlineBefore_iff s [a] _ _ h
  obtain ⟨front', gap', behind', stands', mark'⟩ := @newlineBefore_iff s [a, t] _ _ h
  obtain ⟨front'', gap'', behind'', stands'', mark''⟩ := @newlineBefore_iff s [a, t, b] _ _ h
  refine ⟨a, t, b, e, h, ⟨front, gap, behind, stands, mark.mp ht⟩,
    ⟨front', gap', behind', stands', ?_⟩, front'', gap'', behind'', stands'', mark''.mp he⟩
  rw [← mark', hb]
  exact Bool.false_ne_true

end Source

end ModuleLint
