import ModuleLint.Diagnostic.Emitter
import ModuleLint.Proofs.Source.Location
import ModuleLint.Proofs.Token.Standing

/-!
Carets under the source.

A snippet shows the line that a span starts on and, below it, carets under the span. Both rows start
with a prefix of the same width, and the filler before the carets repeats the tabs of the line, so
the carets stand under the bytes that they mean.
-/

namespace ModuleLint

namespace Diagnostic

variable {span : Span} {printed : Bytes}

/-- Where the underlined part of a line ends: with the span if that ends behind its start on this
line, else with the line. -/
def caretStop (span : Span) (lineLength : Nat) : Nat :=
  if span.stop.line = span.start.line ∧ span.start.column < span.stop.column then
    min (span.stop.column.toNat - 1) lineLength
  else lineLength

/-- How a line is underlined for a span that starts on it: `numbered` stands before the line, and
`blank`, a filler and carets stand below it. -/
structure Underlines (span : Span) (printed numbered blank filler : Bytes) (carets : Nat) :
    Prop where
  /-- The number of the line and a bar. -/
  before : ∃ n, numbered =
    List.replicate n Byte.space ++ Bytes.ofNat span.start.line.toNat ++ ascii " | "
  /-- Only a bar. -/
  below : ∃ n, blank = List.replicate n Byte.space ++ ascii " | "
  width : numbered.length = blank.length
  start : filler.length = span.start.column.toNat - 1
  tabs : ∀ i < filler.length,
    filler[i]? = some (if printed[i]? = some Byte.tab then Byte.tab else Byte.space)
  count : carets = max 1 (caretStop span printed.length - (span.start.column.toNat - 1))
  positive : 1 ≤ carets
  within : filler.length + carets ≤ printed.length
  /-- A span on one line is underlined under its columns, as far as they are printed. -/
  columns : span.stop.line = span.start.line → span.start.column < span.stop.column →
    ∀ i < printed.length, (filler.length ≤ i ∧ i < filler.length + carets ↔
      span.start.column.toNat ≤ i + 1 ∧ i + 1 < span.stop.column.toNat)

/-- What stands before the source line. -/
def numberedPrefix (number : Nat) : Bytes :=
  List.replicate (gutterWidth number - (Bytes.ofNat number).length) Byte.space ++
    Bytes.ofNat number ++ ascii " | "

/-- What stands before the carets. -/
def blankPrefix (number : Nat) : Bytes :=
  List.replicate (gutterWidth number) Byte.space ++ ascii " | "

lemma gutter_number (number : Nat) :
    gutter .plain (gutterWidth number) (Bytes.ofNat number) = numberedPrefix number := by
  simp [gutter, numberedPrefix, Bytes.padLeft, Palette.plain]

lemma gutter_blank (number : Nat) :
    gutter .plain (gutterWidth number) [] = blankPrefix number := by
  simp [gutter, blankPrefix, Bytes.padLeft, Palette.plain]

lemma length_prefixes (number : Nat) :
    (numberedPrefix number).length = (blankPrefix number).length := by
  simp only [numberedPrefix, blankPrefix, List.length_append, List.length_replicate, gutterWidth]
  omega

lemma length_filler (printed : Bytes) (count : Nat) : (filler printed count).length = count := by
  simp [filler]

/-- Within the line, the filler has a tab under every tab and a space under every other byte. -/
lemma getElem?_filler {count i : Nat} (h : i < count) (inside : i < printed.length) :
    (filler printed count)[i]? =
      some (if printed[i]? = some Byte.tab then Byte.tab else Byte.space) := by
  have least : min i (printed.length - 1) = i := by omega
  simp [filler, h, least, inside]

lemma caretCount_eq (span : Span) (lineLength : Nat) :
    caretCount span lineLength =
      max 1 (caretStop span lineLength - (span.start.column.toNat - 1)) := rfl

lemma caretStop_le (span : Span) (lineLength : Nat) : caretStop span lineLength ≤ lineLength := by
  unfold caretStop
  split
  · exact Nat.min_le_right _ _
  · exact Nat.le_refl _

/-- A line is underlined if the span starts under it. -/
lemma underlines_snippet (first : 1 ≤ span.start.column.toNat)
    (last : span.start.column.toNat ≤ printed.length) :
    Underlines span printed (numberedPrefix span.start.line.toNat)
      (blankPrefix span.start.line.toNat) (filler printed (caretStart span))
      (caretCount span printed.length) := by
  have stop := caretStop_le span printed.length
  have length := length_filler printed (caretStart span)
  have start : caretStart span = span.start.column.toNat - 1 := rfl
  have count := caretCount_eq span printed.length
  refine ⟨?_, ?_, length_prefixes _, length, fun i hi => ?_, count, by omega, by omega, ?_⟩
  · exact ⟨_, rfl⟩
  · exact ⟨_, rfl⟩
  · exact getElem?_filler (by omega) (by omega)
  · intro oneLine forward i hi
    have ends : caretStop span printed.length = min (span.stop.column.toNat - 1) printed.length :=
      if_pos ⟨oneLine, forward⟩
    rw [UInt32.lt_iff_toNat_lt] at forward
    omega

/-- The text of a diagnostic whose span starts on a line that is known. -/
lemma toText_of_line {d : Diagnostic} {lineOf : Span → Bytes} (named : d.span.file ≠ [])
    (printed : lineOf d.span ≠ []) :
    d.toText .plain lineOf = header .plain d ++ placeLine .plain d.span ++
      frameLine .plain (gutterWidth d.span.start.line.toNat) ++
      (numberedPrefix d.span.start.line.toNat ++ lineOf d.span ++ ascii "\n") ++
      (blankPrefix d.span.start.line.toNat ++ filler (lineOf d.span) (caretStart d.span) ++
        List.replicate (caretCount d.span (lineOf d.span).length) (byte '^') ++ ascii "\n") ++
      frameLine .plain (gutterWidth d.span.start.line.toNat) ++
      remarks .plain .note d.notes ++ remarks .plain .help d.help := by
  have file : ¬ d.span.file.isEmpty := by simpa using named
  have line : ¬ (lineOf d.span).isEmpty := by simpa using printed
  rw [toText, excerpt, if_neg file]
  dsimp only
  rw [if_neg line, snippet, gutter_number, gutter_blank]
  simp only [Palette.plain, List.append_assoc, List.nil_append]

end Diagnostic

/-! ### Tokens -/

namespace Source

variable {s : Source} {before : List Token} {t : Token} {front gap rest above row line : Bytes}

open Diagnostic TokenList

/-- A token on one line holds no line feed. -/
lemma HoldsAt.oneLine (h : s.HoldsAt before t front gap rest) (small : s.length < 2 ^ 32)
    (same : t.span.stop.line = t.span.start.line) : Byte.lineFeed ∉ t.lexeme := by
  have lines := congrArg UInt32.toNat same
  have size := h.length_eq
  have feeds := t.lexeme.count_le_length (a := Byte.lineFeed)
  simp only [h.span, spanOf, Place.line_toPosition, Place.line_after] at lines
  exact List.count_eq_zero.mp (by omega)

/-- The columns of a token without a line feed, as recorded. -/
lemma HoldsAt.columns (h : s.HoldsAt before t front gap rest)
    (cut : RowCut (front ++ gap) above row) (noFeed : Byte.lineFeed ∉ t.lexeme) :
    t.span.start.column.toNat = (row.length + 1) % 2 ^ 32 ∧
      t.span.stop.column.toNat = (row.length + 1 + t.lexeme.length) % 2 ^ 32 := by
  rw [h.span, spanOf, Place.column_toPosition, Place.column_toPosition,
    Place.column_after_row noFeed, Place.after_of_rowCut cut]
  exact ⟨rfl, rfl⟩

/-- The line that a token starts on begins with the row before it and the token, but for carriage
returns at its end. -/
lemma HoldsAt.line_prefix (h : s.HoldsAt before t front gap rest) (small : s.length < 2 ^ 32)
    (cut : RowCut (front ++ gap) above row) (noFeed : Byte.lineFeed ∉ t.lexeme)
    (printed : s.line t.span.start.line.toNat ≠ []) :
    ∃ more, more.length ≤ rest.length ∧
      s.line t.span.start.line.toNat <+: row ++ (t.lexeme ++ more) := by
  have content : s.content = (front ++ gap) ++ (t.lexeme ++ rest) := by
    rw [h.content, List.append_assoc]
  have size := h.length_eq
  have feeds := (front ++ gap).count_le_length (a := Byte.lineFeed)
  rw [List.length_append] at feeds
  have number : t.span.start.line.toNat = ((front ++ gap).count Byte.lineFeed + 1) % 2 ^ 32 := by
    rw [h.span, spanOf, Place.line_toPosition, Place.after_of_rowCut cut]
  -- there is no line zero, so the number did not wrap
  have some : t.span.start.line.toNat ≠ 0 := by
    intro zero
    rw [zero] at printed
    exact printed rfl
  have fits : t.span.start.line.toNat = (front ++ gap).count Byte.lineFeed + 1 := by omega
  refine ⟨rest.takeWhile (· != Byte.lineFeed), (List.takeWhile_prefix _).length_le, ?_⟩
  rw [fits, line_of_rowCut content cut, takeWhile_row noFeed]
  exact List.rdropWhile_prefix _ _

/-- Under a row, the carets of a token with a byte stop with the token or with the line. Its last
column is at most `2 ^ 32`, which wraps only at the end of the source. -/
lemma caretStop_oneLine {span : Span} {start size lineLength : Nat}
    (same : span.stop.line = span.start.line) (first : span.start.column.toNat = start + 1)
    (stop : span.stop.column.toNat = (start + 1 + size) % 2 ^ 32) (some : 0 < size)
    (fits : start + size < 2 ^ 32) (lineFits : lineLength < 2 ^ 32) :
    caretStop span lineLength = min (start + size) lineLength := by
  simp only [caretStop, same, true_and, UInt32.lt_iff_toNat_lt]
  split <;> omega

/-- What starts the same text agrees as far as both go. -/
lemma take_min_of_prefix {u v more : Bytes} (h : v <+: u ++ more) :
    v.take (min u.length v.length) = u.take (min u.length v.length) := by
  obtain ⟨behind, whole⟩ := h
  rw [← List.take_append_of_le_length (Nat.min_le_right _ v.length), whole,
    List.take_append_of_le_length (Nat.min_le_left _ _)]

/-- The carets of a token on one line stand under its bytes, up to the end of the line if not all
of them are printed. -/
lemma HoldsAt.underlined (h : s.HoldsAt before t front gap rest) (small : s.length < 2 ^ 32)
    (same : t.span.stop.line = t.span.start.line)
    (shown : s.line t.span.start.line.toNat = line) (first : 1 ≤ t.span.start.column.toNat)
    (last : t.span.start.column.toNat ≤ line.length) :
    ∃ unprinted,
      t.lexeme = (line.drop (caretStart t.span)).take (caretCount t.span line.length) ++ unprinted ∧
        (unprinted ≠ [] → caretStart t.span + caretCount t.span line.length = line.length) := by
  have noFeed := h.oneLine small same
  obtain ⟨above, row, cut⟩ := exists_rowCut (front ++ gap)
  obtain ⟨startColumn, stopColumn⟩ := h.columns cut noFeed
  have printed : s.line t.span.start.line.toNat ≠ [] := by
    rw [shown, ← List.length_pos_iff]
    omega
  obtain ⟨more, fewer, starts⟩ := h.line_prefix small cut noFeed printed
  rw [shown] at starts
  have size := h.length_eq
  have rowSize := congrArg List.length cut.whole
  have lineSize := starts.length_le
  simp only [List.length_append] at rowSize lineSize
  -- the start fits its word, and the token has a byte
  have start : t.span.start.column.toNat = row.length + 1 := by omega
  have some : 0 < t.lexeme.length := by
    by_contra none
    have noBytes : t.lexeme = [] := List.length_eq_zero_iff.mp (by omega)
    have noRest := congrArg List.length (h.last noBytes)
    rw [List.length_nil] at noRest
    omega
  have stop := @caretStop_oneLine _ _ _ line.length same start stopColumn some (by omega) (by omega)
  obtain ⟨w, rfl⟩ :=
    List.prefix_of_prefix_length_le (List.prefix_append _ _) starts (by omega : row.length ≤ _)
  have bytes := take_min_of_prefix ((List.prefix_append_right_inj row).mp starts)
  have count : caretCount t.span (row ++ w).length = min t.lexeme.length w.length := by
    rw [caretCount_eq, stop, start]
    rw [List.length_append] at last ⊢
    omega
  rw [count, caretStart, start, Nat.add_sub_cancel, List.drop_left, bytes]
  refine ⟨t.lexeme.drop (min t.lexeme.length w.length), (List.take_append_drop _ _).symm, ?_⟩
  intro unprinted
  rw [ne_eq, List.drop_eq_nil_iff] at unprinted
  rw [List.length_append]
  omega

end Source

open Diagnostic TokenList

namespace Emitter

/-- The line that is shown for a span: the one that it starts on, unless it is about no file. -/
def shownLine (e : Emitter) (span : Span) : Bytes :=
  if span.file.isEmpty then [] else e.lineOf span

/-- A line with a byte is shown from a source. -/
lemma exists_source {e : Emitter} {span : Span} (h : e.shownLine span ≠ []) :
    span.file ≠ [] ∧ e.lineOf span = e.shownLine span ∧
      ∃ source, e.sources.find? (·.name == span.file) = some source ∧
        e.shownLine span = source.line span.start.line.toNat := by
  unfold shownLine at h ⊢
  split at h
  case isTrue => exact absurd rfl h
  case isFalse named =>
    refine ⟨by simpa using named, by rw [if_neg named], ?_⟩
    rw [if_neg named]
    unfold lineOf at h ⊢
    split at h
    case h_1 source found => exact ⟨source, found, rfl⟩
    case h_2 => exact absurd rfl h

/-- **Carets stand under the span.** In text without colours, the line that is shown for a span is
underlined if the span starts under it. A token on one line is underlined under those of its bytes
that are printed, if the offsets of the source fit words: in a larger one a span names other
places. -/
theorem emit_underlines {e : Emitter} {d : Diagnostic} (text : e.format = .text)
    (colourless : e.coloured = false) (first : 1 ≤ d.span.start.column.toNat)
    (last : d.span.start.column.toNat ≤ (e.shownLine d.span).length) :
    let line := e.shownLine d.span
    let frame := frameLine .plain (gutterWidth d.span.start.line.toNat)
    ∃ source numbered blank filler carets,
      e.sources.find? (·.name == d.span.file) = some source ∧
      line = source.line d.span.start.line.toNat ∧
      (e.emit d).2 = header .plain d ++ placeLine .plain d.span ++ frame ++
        (numbered ++ line ++ ascii "\n") ++
        (blank ++ filler ++ List.replicate carets (byte '^') ++ ascii "\n") ++ frame ++
        remarks .plain .note d.notes ++ remarks .plain .help d.help ∧
      Underlines d.span line numbered blank filler carets ∧
      (source.length < 2 ^ 32 → ∀ t ∈ source.tokens.tokens, t.span = d.span →
        t.span.stop.line = t.span.start.line →
        ∃ unprinted, t.lexeme = (line.drop filler.length).take carets ++ unprinted ∧
          (unprinted ≠ [] → filler.length + carets = line.length)) := by
  have printed : e.shownLine d.span ≠ [] := List.length_pos_iff.mp (by omega)
  obtain ⟨named, shown, source, registered, starts⟩ := exists_source printed
  have output := @toText_of_line d e.lineOf named (shown ▸ printed)
  rw [shown] at output
  refine ⟨source, _, _, _, _, registered, starts, ?_, underlines_snippet first last, ?_⟩
  · rw [emit, render, text, colourless]
    exact output
  · intro small t ht same oneLine
    obtain ⟨before, after, split⟩ := List.append_of_mem ht
    obtain ⟨front, gap, rest, holds⟩ := Source.exists_holdsAt split
    rw [← same] at starts first last ⊢
    rw [length_filler]
    exact holds.underlined small oneLine starts.symm first last

/-- The string in this source is not closed, and the carriage return at its end is not printed. The
carets stand behind a tab, under the other three bytes. -/
theorem emit_underlines_return :
    let s : Source := ⟨ascii "a.js", ascii "\t'ab\r\n"⟩
    let e := (Emitter.start .text).addSource s
    let d := Diagnostic.plain .error [] (ascii "m") ⟨ascii "a.js", ⟨1, 2, 1⟩, ⟨1, 6, 5⟩⟩ []
    e.format = .text ∧ e.coloured = false ∧ 1 ≤ d.span.start.column.toNat ∧
      d.span.start.column.toNat ≤ (e.shownLine d.span).length ∧
      ∃ t after numbered blank filler, s.tokens.tokens = t :: after ∧ t.span = d.span ∧
        Underlines d.span (ascii "\t'ab") numbered blank filler 3 ∧
        filler[0]? = some Byte.tab ∧ t.lexeme = ascii "'ab\r" ∧
        ∃ unprinted, t.lexeme = ascii "'ab" ++ unprinted := by
  intro s e d
  have shown : e.shownLine d.span = ascii "\t'ab" := by decide +kernel
  have first : 1 ≤ d.span.start.column.toNat := by decide
  have last : d.span.start.column.toNat ≤ (e.shownLine d.span).length := by
    rw [shown]
    decide
  let t : Token := ⟨.error, d.span, ascii "'ab\r", ascii "'ab\r", false⟩
  let t' : Token := ⟨.eof, ⟨ascii "a.js", ⟨2, 1, 6⟩, ⟨2, 1, 6⟩⟩, [], [], true⟩
  have tokens : s.tokens.tokens = [t, t'] := by decide +kernel
  obtain ⟨source, numbered, blank, filler, carets, registered, -, -, under, bytes⟩ :=
    emit_underlines rfl rfl first last
  obtain rfl : s = source := Option.some.inj registered
  rw [shown] at under bytes
  have start : filler.length = 1 := under.start
  have count : carets = 3 := under.count
  subst count
  obtain ⟨unprinted, lexeme, -⟩ :=
    bytes (by decide) t (tokens ▸ List.mem_cons_self) rfl rfl
  rw [start] at lexeme
  exact ⟨rfl, rfl, first, last, t, [t'], numbered, blank, filler, tokens, rfl, under,
    under.tabs 0 (by omega), rfl, unprinted, lexeme⟩

end Emitter

end ModuleLint
