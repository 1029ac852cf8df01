import Mathlib.Tactic.Common
import ModuleLint.Token.Gap

/-!
What a gap consists of.

A gap is a sequence of blanks and comments as a whole, and may end in a comment that is never
closed. The scanner goes byte by byte and knows only what it stands in, so the proof says of each
such place which rests of a gap may follow it.
-/

namespace ModuleLint

namespace Gap

/-- What closes a block comment. -/
def closing : Bytes := [Byte.star, Byte.slash]

/-- Blanks and whole comments before a text. -/
inductive Trivia (behind : Bytes) : Bytes → Prop
  | none : Trivia behind []
  | blank {b : UInt8} {gap : Bytes} (h : isBlank b ∨ b = Byte.lineFeed) (rest : Trivia behind gap) :
    Trivia behind (b :: gap)
  /-- A line comment reaches up to a line feed or to the end of the text. -/
  | lineComment {body gap : Bytes} (h : Byte.lineFeed ∉ body)
    (stops : ∀ b ∈ (gap ++ behind).head?, b = Byte.lineFeed) (rest : Trivia behind gap) :
    Trivia behind (Byte.slash :: Byte.slash :: body ++ gap)
  /-- A block comment reaches up to the first closing. -/
  | blockComment {body gap : Bytes} (h : ¬ closing <:+: body) (rest : Trivia behind gap) :
    Trivia behind (Byte.slash :: Byte.star :: body ++ closing ++ gap)

/-- A block comment that is never closed. -/
def Unclosed (text : Bytes) : Prop :=
  ∃ body, text = Byte.slash :: Byte.star :: body ∧ ¬ closing <:+: body

/-! ### Rests of a gap -/

/-- The rests of a gap at a place in it. -/
def Within.Rest (behind gap : Bytes) : Within → Prop
  | .blanks => Trivia behind gap
  | .lineComment => ∃ body more, gap = body ++ more ∧ Byte.lineFeed ∉ body ∧
      (∀ b ∈ (more ++ behind).head?, b = Byte.lineFeed) ∧ Trivia behind more
  | .blockComment _ => ∃ body more, gap = body ++ closing ++ more ∧ ¬ closing <:+: body ∧
      Trivia behind more

/-- What a gap that was scanned at a place says of the text: where it ends, and whether it ends in
an unclosed comment. -/
inductive Scanned (w : Within) (text : Bytes) (g : Gap) : Prop
  | closed {gap behind : Bytes} (split : text = gap ++ behind) (rest : w.Rest behind gap)
    (size : g.size = gap.length) (none : g.unclosed = none)
  | unclosed {gap comment : Bytes} (split : text = gap ++ comment) (rest : w.Rest comment gap)
    (never : Unclosed comment) (size : g.size = text.length)
    (some : g.unclosed = some comment.length)
  /-- The comment that the place is in is not closed. -/
  | inside {read : Nat} (place : w = .blockComment read) (h : ¬ closing <:+: text)
    (size : g.size = text.length) (some : g.unclosed = some (read + text.length))

section Steps

variable {w w' : Within} {pre text : Bytes} {g g' : Gap}

/-- A step of the scanner over some bytes. -/
lemma Scanned.step (h : Scanned w' text g') (size : g.size = g'.size + pre.length)
    (unclosed : g.unclosed = g'.unclosed)
    (rest : ∀ {gap behind}, text = gap ++ behind → w'.Rest behind gap → w.Rest behind (pre ++ gap))
    (inside : ∀ read, w' = .blockComment read → ¬ closing <:+: text →
      g'.unclosed = some (read + text.length) → g.size = (pre ++ text).length →
      Scanned w (pre ++ text) g) : Scanned w (pre ++ text) g := by
  cases h with
  | closed split hr hs hn =>
    refine .closed ?_ (rest split hr) ?_ (unclosed.trans hn)
    · rw [split, List.append_assoc]
    · rw [size, hs, List.length_append, Nat.add_comm]
  | unclosed split hr never hs hn =>
    refine .unclosed ?_ (rest split hr) never ?_ (unclosed.trans hn)
    · rw [split, List.append_assoc]
    · rw [size, hs, List.length_append, Nat.add_comm]
  | inside place h hs hn =>
    refine inside _ place h hn ?_
    rw [size, hs, List.length_append, Nat.add_comm]

end Steps

/-- A byte before a text without a closing starts none with it. -/
lemma not_closing_cons {b : UInt8} {text : Bytes} (h : ¬ closing <:+: text)
    (noStart : ∀ rest, b = Byte.star → text = Byte.slash :: rest → False) :
    ¬ closing <:+: b :: text := by
  intro found
  rcases List.infix_cons_iff.mp found with ⟨rest, hp⟩ | found
  · obtain ⟨hb, ht⟩ := List.cons.inj hp
    exact noStart rest hb.symm ht.symm
  · exact h found

/-- A byte in a block comment that does not close it. -/
lemma Scanned.comment {read : Nat} {b : UInt8} {text : Bytes} {g g' : Gap}
    (h : Scanned (.blockComment (read + 1)) text g')
    (noStart : ∀ rest, b = Byte.star → text = Byte.slash :: rest → False)
    (size : g.size = g'.size + 1) (unclosed : g.unclosed = g'.unclosed) :
    Scanned (.blockComment read) (b :: text) g := by
  refine @Scanned.step _ _ [b] _ _ _ h size unclosed ?_ fun r place noClosing hn hs => ?_
  · rintro gap behind split ⟨body, more, rfl, noClosing, trivia⟩
    refine ⟨b :: body, more, rfl, not_closing_cons noClosing fun rest hb hbody => ?_, trivia⟩
    refine noStart (rest ++ closing ++ more ++ behind) hb ?_
    rw [split, hbody]
    simp
  · cases place
    refine .inside rfl (not_closing_cons noClosing noStart) hs (unclosed.trans (hn.trans ?_))
    congr 1
    rw [List.length_append, List.length_singleton]
    omega

lemma scanFrom_scanned (w : Within) (text : Bytes) : Scanned w text (scanFrom w text) := by
  fun_induction scanFrom w text with
  | case1 rest ih =>
    refine @Scanned.step _ _ [Byte.slash, Byte.slash] _ _ _ ih rfl rfl ?_ nofun
    rintro gap behind - ⟨body, more, rfl, noFeed, stops, trivia⟩
    change Trivia behind (Byte.slash :: Byte.slash :: body ++ more)
    exact .lineComment noFeed stops trivia
  | case2 rest ih =>
    refine @Scanned.step _ _ [Byte.slash, Byte.star] _ _ _ ih rfl rfl ?_ ?_
    · rintro gap behind - ⟨body, more, rfl, noClosing, trivia⟩
      change Trivia behind (Byte.slash :: Byte.star :: body ++ closing ++ more)
      exact .blockComment noClosing trivia
    · rintro read ⟨⟩ noClosing hn hs
      refine .unclosed (List.nil_append _).symm .none ⟨rest, rfl, noClosing⟩ hs (hn.trans ?_)
      rw [List.length_append, List.length_cons, List.length_singleton]
  | case3 rest _ _ ih =>
    exact @Scanned.step _ _ [Byte.lineFeed] _ _ _ ih rfl rfl (fun _ => .blank (.inr rfl)) nofun
  | case4 b rest _ _ _ hb ih =>
    exact @Scanned.step _ _ [b] _ _ _ ih rfl rfl (fun _ => .blank (.inl hb)) nofun
  | case5 b rest => exact .closed (List.nil_append _).symm .none rfl rfl
  | case6 => exact .closed (List.nil_append _).symm .none rfl rfl
  | case7 rest ih =>
    refine @Scanned.step _ _ [Byte.lineFeed] _ _ _ ih rfl rfl (fun _ trivia => ?_) nofun
    exact ⟨[], _, rfl, by simp, by simp, .blank (.inr rfl) trivia⟩
  | case8 b rest hb ih =>
    refine @Scanned.step _ _ [b] _ _ _ ih rfl rfl ?_ nofun
    rintro gap behind - ⟨body, more, rfl, noFeed, stops, trivia⟩
    exact ⟨b :: body, more, rfl, by simpa using ⟨Ne.symm hb, noFeed⟩, stops, trivia⟩
  | case9 =>
    exact .closed (List.nil_append _).symm ⟨[], [], rfl, by simp, by simp, .none⟩ rfl rfl
  | case10 read rest ih =>
    refine @Scanned.step _ _ closing _ _ _ ih rfl rfl (fun _ trivia => ?_) nofun
    exact ⟨[], _, rfl, by simp [closing], trivia⟩
  | case11 read rest _ noStart ih => exact ih.comment noStart rfl rfl
  | case12 read b rest noStart _ _ ih => exact ih.comment noStart rfl rfl
  | case13 read =>
    exact .inside rfl (by simp [closing]) rfl rfl

/-! ### Whole gaps -/

/-- **A gap is made of blanks and comments.** Either it ends where the next token starts, or in a
comment that reaches to the end of the text and is never closed. -/
theorem scan_trivia (text : Bytes) :
    ((scan text).unclosed = none ∧
      Trivia (text.drop (scan text).size) (text.take (scan text).size)) ∨
    ∃ gap comment, text = gap ++ comment ∧ Trivia comment gap ∧ Unclosed comment ∧
      (scan text).size = text.length ∧ (scan text).unclosed = some comment.length := by
  cases scanFrom_scanned .blanks text with
  | @closed gap behind split rest size none =>
    refine .inl ⟨none, ?_⟩
    change (scan text).size = _ at size
    rw [size, split, List.take_left, List.drop_left]
    exact rest
  | unclosed split rest never size some => exact .inr ⟨_, _, split, rest, never, size, some⟩
  | inside place => cases place

end Gap

end ModuleLint
