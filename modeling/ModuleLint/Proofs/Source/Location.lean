import ModuleLint.Proofs.Source.LineIndex

/-!
Places in a source.

What the index of lines tells of an offset is where the bytes before it lead, one by one: every line
feed to a new line, every other byte along its row. The line itself is the row with the rest of the
source up to the next line feed, without the carriage returns at its end. Numbers are recorded in
words, which wrap at the end of a source of `2 ^ 32 - 1` bytes that are all in one row, or all line
feeds.
-/

namespace ModuleLint

namespace Place

variable {p : Place} {text above row : Bytes}

@[simp] lemma line_after (p : Place) (text : Bytes) :
    (p.after text).line = p.line + text.count Byte.lineFeed := by
  unfold after
  induction text generalizing p with
  | nil => rfl
  | cons b text ih =>
    rw [List.foldl_cons, ih, List.count_cons, step]
    split
    case isTrue feed => simp only [feed, BEq.rfl, if_true]; omega
    case isFalse noFeed => simp [noFeed]

/-- Lines and columns are recorded in words. -/
lemma line_toPosition (p : Place) : p.toPosition.line.toNat = p.line % 2 ^ 32 :=
  UInt32.toNat_ofNat'

lemma column_toPosition (p : Place) : p.toPosition.column.toNat = p.column % 2 ^ 32 :=
  UInt32.toNat_ofNat'

/-- Along a row only the column grows. -/
lemma column_after_row (h : Byte.lineFeed ∉ row) :
    (p.after row).column = p.column + row.length := by
  unfold after
  induction row generalizing p with
  | nil => rfl
  | cons b row ih =>
    obtain ⟨noFeed, more⟩ := not_or.mp (mt List.mem_cons.mpr h)
    rw [List.foldl_cons, ih more, step, if_neg (Ne.symm noFeed), List.length_cons,
      Nat.add_comm row.length, Nat.add_assoc]

lemma column_after_lineFeed (text : Bytes) : (p.after (text ++ [Byte.lineFeed])).column = 1 := by
  rw [TokenList.after_append]
  rfl

lemma after_of_rowCut (h : RowCut text above row) :
    first.after text = ⟨text.count Byte.lineFeed + 1, row.length + 1, text.length⟩ := by
  have line := line_after first text
  have offset := offset_after first text
  have column : (first.after text).column = row.length + 1 := by
    rw [h.whole, TokenList.after_append, column_after_row h.oneLine, Nat.add_comm]
    congr 1
    rcases above.eq_nil_or_concat with rfl | ⟨f, b, rfl⟩
    · rfl
    · have feed := h.starts b (by simp)
      rw [feed, List.concat_eq_append, column_after_lineFeed]
  generalize first.after text = q at line offset column
  obtain ⟨l, c, o⟩ := q
  simp only [first] at line offset column
  simp only [mk.injEq]
  omega

/-- Every byte leads on, to a later line or to a later column. -/
lemma after_increases (h : text ≠ []) :
    p.line < (p.after text).line ∨
      p.line = (p.after text).line ∧ p.column < (p.after text).column := by
  rw [line_after]
  by_cases feed : Byte.lineFeed ∈ text
  · have some := List.count_pos_iff.mpr feed
    omega
  · have none := List.count_eq_zero.mpr feed
    have positive := List.length_pos_iff.mpr h
    rw [column_after_row feed]
    omega

end Place

namespace Source

variable {s : Source} {a b : Nat} {above row tail text : Bytes}

/-! ### Places -/

/-- Where the bytes before an offset lead. -/
def place (s : Source) (a : Nat) : Place := Place.first.after (s.content.take a)

lemma place_of_rowCut (h : a ≤ s.length) (cut : RowCut (s.content.take a) above row) :
    s.place a = ⟨(s.content.take a).count Byte.lineFeed + 1, row.length + 1, a⟩ := by
  have length : (s.content.take a).length = a := List.length_take_of_le h
  rw [place, Place.after_of_rowCut cut, length]

lemma place_le (h : a ≤ s.length) :
    0 < (s.place a).line ∧ (s.place a).line ≤ a + 1 ∧ 0 < (s.place a).column ∧
      (s.place a).column ≤ a + 1 := by
  obtain ⟨above, row, cut⟩ := exists_rowCut (s.content.take a)
  have length : (s.content.take a).length = a := List.length_take_of_le h
  have feeds := (s.content.take a).count_le_length (a := Byte.lineFeed)
  have inside := congrArg List.length cut.whole
  rw [List.length_append] at inside
  rw [place_of_rowCut h cut]
  dsimp only
  omega

lemma place_increases (h : a < b) (hb : b ≤ s.length) :
    (s.place a).line < (s.place b).line ∨
      (s.place a).line = (s.place b).line ∧ (s.place a).column < (s.place b).column := by
  obtain ⟨n, rfl⟩ := Nat.exists_eq_add_of_lt h
  have some : (s.content.drop a).take (n + 1) ≠ [] := by
    rw [ne_eq, List.take_eq_nil_iff, List.drop_eq_nil_iff]
    unfold length at hb
    omega
  rw [place, place, Nat.add_assoc, List.take_add, TokenList.after_append]
  exact Place.after_increases some

/-! ### Recorded places -/

/-- The search finds where the bytes before the offset lead. -/
lemma position_location (h : a ≤ s.length) : (s.location a).position = (s.place a).toPosition := by
  obtain ⟨above, row, cut⟩ := exists_rowCut (s.content.take a)
  have length := congrArg List.length cut.whole
  rw [List.length_take_of_le h, List.length_append] at length
  have behind : a - above.length = row.length := by omega
  rw [location_of_rowCut cut, place_of_rowCut h cut, behind, Place.toPosition]
  simp only [Nat.toUInt32, UInt32.ofNat_add]
  rfl

/-- In words, the line and the column of every offset are as they are counted. -/
lemma location_words (h : a ≤ s.length) (cut : RowCut (s.content.take a) above row) :
    (s.location a).position.line = 1 + ((s.content.take a).count Byte.lineFeed).toUInt32 ∧
      (s.location a).position.column = 1 + row.length.toUInt32 := by
  rw [position_location h, place_of_rowCut h cut, UInt32.add_comm 1, UInt32.add_comm 1]
  exact ⟨UInt32.ofNat_add _ _, UInt32.ofNat_add _ _⟩

/-- Recorded places differ, also where they wrap. -/
lemma location_injective (small : s.length < 2 ^ 32) (ha : a ≤ s.length) (hb : b ≤ s.length)
    (line : (s.location a).position.line = (s.location b).position.line)
    (column : (s.location a).position.column = (s.location b).position.column) : a = b := by
  have lines := congrArg UInt32.toNat line
  have columns := congrArg UInt32.toNat column
  simp only [position_location ha, position_location hb, Place.line_toPosition,
    Place.column_toPosition] at lines columns
  have boundA := place_le ha
  have boundB := place_le hb
  -- both count from one to at most `2 ^ 32`
  have sameLine : (s.place a).line = (s.place b).line := by omega
  have sameColumn : (s.place a).column = (s.place b).column := by omega
  rcases Nat.lt_trichotomy a b with less | same | more
  · have apart := place_increases less hb
    omega
  · exact same
  · have apart := place_increases more ha
    omega

/-! ### Where words wrap -/

/-- Line feeds alone, so many that the number of the line behind them wraps. -/
def FillsLines (text : Bytes) : Prop := text.length + 1 = 2 ^ 32 ∧ ∀ b ∈ text, b = Byte.lineFeed

/-- A single row, so long that the number of the column behind it wraps. -/
def FillsRow (text : Bytes) : Prop := text.length + 1 = 2 ^ 32 ∧ Byte.lineFeed ∉ text

lemma lines_fit (small : text.length < 2 ^ 32) (h : ¬ FillsLines text) :
    text.count Byte.lineFeed + 1 < 2 ^ 32 := by
  have feeds := text.count_le_length (a := Byte.lineFeed)
  by_contra more
  refine h ⟨by omega, fun b hb => ?_⟩
  exact (List.count_eq_length.mp (by omega) b hb).symm

lemma row_fits (small : text.length < 2 ^ 32) (cut : RowCut text above row)
    (h : ¬ FillsRow text) : row.length + 1 < 2 ^ 32 := by
  have lengths := congrArg List.length cut.whole
  rw [List.length_append] at lengths
  by_contra more
  have nothing : above = [] := List.length_eq_zero_iff.mp (by omega)
  refine h ⟨by omega, ?_⟩
  rw [cut.whole, nothing]
  exact cut.oneLine

/-- The line of an offset is recorded as it is, unless the line feeds before it are too many. -/
lemma location_line (small : s.length < 2 ^ 32) (h : a ≤ s.length)
    (fits : ¬ FillsLines (s.content.take a)) :
    (s.location a).position.line.toNat = (s.place a).line := by
  obtain ⟨above, row, cut⟩ := exists_rowCut (s.content.take a)
  have lines := lines_fit (by rw [List.length_take_of_le h]; omega) fits
  rw [position_location h, Place.line_toPosition, place_of_rowCut h cut, Nat.mod_eq_of_lt lines]

/-- The column of an offset is recorded as it is, unless the row before it is too long. -/
lemma location_column (small : s.length < 2 ^ 32) (h : a ≤ s.length)
    (fits : ¬ FillsRow (s.content.take a)) :
    (s.location a).position.column.toNat = (s.place a).column := by
  obtain ⟨above, row, cut⟩ := exists_rowCut (s.content.take a)
  have columns := row_fits (by rw [List.length_take_of_le h]; omega) cut fits
  rw [position_location h, Place.column_toPosition, place_of_rowCut h cut,
    Nat.mod_eq_of_lt columns]

lemma location_line_wraps (h : a ≤ s.length) (filled : FillsLines (s.content.take a)) :
    (s.location a).position.line = 0 := by
  obtain ⟨above, row, cut⟩ := exists_rowCut (s.content.take a)
  have feeds : (s.content.take a).count Byte.lineFeed = (s.content.take a).length :=
    List.count_eq_length.mpr fun b hb => (filled.2 b hb).symm
  rw [← UInt32.toNat_inj, position_location h, Place.line_toPosition, place_of_rowCut h cut, feeds,
    filled.1, Nat.mod_self, UInt32.toNat_zero]

lemma location_column_wraps (h : a ≤ s.length) (filled : FillsRow (s.content.take a)) :
    (s.location a).position.column = 0 := by
  have cut : RowCut (s.content.take a) [] (s.content.take a) := ⟨rfl, by simp, filled.2⟩
  rw [← UInt32.toNat_inj, position_location h, Place.column_toPosition, place_of_rowCut h cut,
    filled.1, Nat.mod_self, UInt32.toNat_zero]

lemma lineCount_wraps (filled : FillsLines s.content) : s.lineCount = 0 := by
  have feeds : s.content.count Byte.lineFeed = s.content.length :=
    List.count_eq_length.mpr fun b hb => (filled.2 b hb).symm
  rw [lineCount, length_lineStarts, feeds, filled.1]
  rfl

/-- Only behind all of the source do its bytes fill the lines or a row. -/
lemma before_end (h : a < s.length) (small : s.length < 2 ^ 32) :
    ¬ FillsLines (s.content.take a) ∧ ¬ FillsRow (s.content.take a) := by
  have length : (s.content.take a).length = a := List.length_take_of_le (Nat.le_of_lt h)
  constructor <;> rintro ⟨filled, -⟩ <;> omega

/-! ### Order -/

lemma location_increases (small : s.length < 2 ^ 32) (h : a < b) (hb : b ≤ s.length)
    (lines : ¬ FillsLines (s.content.take b)) (row : ¬ FillsRow (s.content.take b)) :
    (s.location a).position.line < (s.location b).position.line ∨
      (s.location a).position.line = (s.location b).position.line ∧
        (s.location a).position.column < (s.location b).position.column := by
  have ha := Nat.lt_of_lt_of_le h hb
  obtain ⟨linesA, rowA⟩ := before_end ha small
  rw [UInt32.lt_iff_toNat_lt, UInt32.lt_iff_toNat_lt, ← UInt32.toNat_inj,
    location_line small (Nat.le_of_lt ha) linesA, location_column small (Nat.le_of_lt ha) rowA,
    location_line small hb lines, location_column small hb row]
  exact place_increases h hb

lemma location_bounds (small : s.length < 2 ^ 32) (fits : ¬ FillsLines s.content)
    (h : a ≤ s.length) :
    1 ≤ (s.location a).position.line ∧ (s.location a).position.line ≤ s.lineCount := by
  have linesA : ¬ FillsLines (s.content.take a) := by
    obtain before | rfl := Nat.lt_or_eq_of_le h
    · exact (before_end before small).1
    · rwa [length, List.take_length]
  obtain ⟨above, row, cut⟩ := exists_rowCut (s.content.take a)
  have feeds := (List.take_sublist a s.content).count_le Byte.lineFeed
  have lines := lines_fit small fits
  have count : s.lineCount.toNat = s.content.count Byte.lineFeed + 1 := by
    rw [lineCount, length_lineStarts]
    exact UInt32.toNat_ofNat_of_lt' lines
  rw [UInt32.le_iff_toNat_le, UInt32.le_iff_toNat_le, location_line small h linesA, count,
    place_of_rowCut h cut]
  exact ⟨Nat.le_add_left _ _, Nat.add_le_add_right feeds 1⟩

/-! ### Bytes that are printed -/

/-- Only carriage returns stand before the end of the line. -/
def endsLine (rest : Bytes) : Bool :=
  (rest.dropWhile (· == Byte.carriageReturn)).head?.all (· == Byte.lineFeed)

/-- A line without carriage returns at its end is all of it only if the line does not end here. -/
lemma endsLine_of_blank {rest : Bytes}
    (h : (rest.takeWhile (· != Byte.lineFeed)).rdropWhile (· == Byte.carriageReturn) = []) :
    endsLine rest := by
  have returns := List.rdropWhile_eq_nil_iff.mp h
  have feed := List.head?_dropWhile_not (· != Byte.lineFeed) rest
  have split : rest.dropWhile (· == Byte.carriageReturn) =
      (rest.dropWhile (· != Byte.lineFeed)).dropWhile (· == Byte.carriageReturn) := by
    conv_lhs => rw [← @List.takeWhile_append_dropWhile _ (· != Byte.lineFeed) rest]
    exact List.dropWhile_append_of_pos returns
  unfold endsLine
  rw [split]
  cases behind : rest.dropWhile (· != Byte.lineFeed) with
  | nil => rfl
  | cons c more =>
    rw [behind] at feed
    have feed : c = Byte.lineFeed := by simpa using feed
    rw [feed]
    rfl

lemma rdropWhile_append {p : UInt8 → Bool} {u v : Bytes} (h : v.rdropWhile p ≠ []) :
    (u ++ v).rdropWhile p = u ++ v.rdropWhile p := by
  unfold List.rdropWhile at h ⊢
  have some : ¬ (v.reverse.dropWhile p).isEmpty := by simpa using h
  rw [List.reverse_append, List.dropWhile_append, if_neg some, List.reverse_append,
    List.reverse_reverse]

/-- A byte that does not end its line is printed behind the row before it. -/
lemma getElem?_printed {rest : Bytes} {b : UInt8} (h : ¬ endsLine (b :: rest)) :
    ((row ++ (b :: rest).takeWhile (· != Byte.lineFeed)).rdropWhile
      (· == Byte.carriageReturn))[row.length]? = some b := by
  have noFeed : b ≠ Byte.lineFeed := by
    rintro rfl
    exact h rfl
  have some := mt endsLine_of_blank h
  have starts := List.rdropWhile_prefix (· == Byte.carriageReturn)
    ((b :: rest).takeWhile (· != Byte.lineFeed))
  rw [rdropWhile_append some, List.getElem?_append_right (Nat.le_refl _), Nat.sub_self]
  rw [List.takeWhile_cons_of_pos (by simpa using noFeed)] at starts some ⊢
  obtain ⟨c, printed, same⟩ := List.exists_cons_of_ne_nil some
  rw [same] at starts ⊢
  rw [(List.cons_prefix_cons.mp starts).1]
  rfl

/-- The line of a byte that does not end it shows it at its column. -/
lemma line_shows (small : s.length < 2 ^ 32) (h : a < s.length)
    (printed : ¬ endsLine (s.content.drop a)) :
    (s.line (s.location a).position.line.toNat)[(s.location a).position.column.toNat - 1]? =
      some (s.byteAt a) := by
  obtain ⟨above, row, cut⟩ := exists_rowCut (s.content.take a)
  obtain ⟨lines, columns⟩ := before_end h small
  have content := (List.take_append_drop a s.content).symm
  have here : s.content.drop a = s.byteAt a :: s.content.drop (a + 1) := by
    rw [byteAt, List.getD_eq_getElem _ _ h]
    exact List.drop_eq_getElem_cons h
  rw [location_line small (Nat.le_of_lt h) lines, location_column small (Nat.le_of_lt h) columns,
    place_of_rowCut (Nat.le_of_lt h) cut, line_of_rowCut content cut, Nat.add_sub_cancel]
  rw [here] at printed ⊢
  exact getElem?_printed printed

/-! ### The theorem -/

/-- **Locations are exact and can be inverted.** In a source of fewer than `2 ^ 32` bytes, the line
of an offset is one more than the line feeds before it, and its column one more than the bytes
behind the last of them. Different offsets have different locations, which grow in the order of
lines and then columns, and the line shows every byte at its column that does not end it. Words
wrap at one place, the end of a source of exactly `2 ^ 32 - 1` bytes: if all of them are one row its
column is zero, and if all are line feeds its line is, and so is the number of lines. -/
theorem location_exact {s : Source} (small : s.length < 2 ^ 32) :
    (∀ a ≤ s.length, ∃ above row, RowCut (s.content.take a) above row ∧
      (s.location a).position.line = 1 + ((s.content.take a).count Byte.lineFeed).toUInt32 ∧
      (s.location a).position.column = 1 + row.length.toUInt32 ∧
      (¬ FillsLines (s.content.take a) →
        (s.location a).position.line.toNat = 1 + (s.content.take a).count Byte.lineFeed) ∧
      (¬ FillsRow (s.content.take a) →
        (s.location a).position.column.toNat = 1 + row.length) ∧
      (FillsLines (s.content.take a) → (s.location a).position.line = 0) ∧
      (FillsRow (s.content.take a) → (s.location a).position.column = 0)) ∧
    (¬ FillsLines s.content → ∀ a ≤ s.length,
      1 ≤ (s.location a).position.line ∧ (s.location a).position.line ≤ s.lineCount) ∧
    (FillsLines s.content → s.lineCount = 0) ∧
    (∀ a ≤ s.length, ∀ b ≤ s.length, (s.location a).position.line = (s.location b).position.line →
      (s.location a).position.column = (s.location b).position.column → a = b) ∧
    (∀ a b, a < b → b ≤ s.length → ¬ FillsLines (s.content.take b) →
      ¬ FillsRow (s.content.take b) →
      (s.location a).position.line < (s.location b).position.line ∨
        (s.location a).position.line = (s.location b).position.line ∧
          (s.location a).position.column < (s.location b).position.column) ∧
    ∀ a < s.length, ¬ endsLine (s.content.drop a) →
      (s.line (s.location a).position.line.toNat)[(s.location a).position.column.toNat - 1]? =
        some (s.byteAt a) := by
  refine ⟨fun a ha => ?_, fun fits a ha => location_bounds small fits ha, lineCount_wraps,
    fun a ha b hb => location_injective small ha hb, fun a b => location_increases small,
    fun a ha => line_shows small ha⟩
  obtain ⟨above, row, cut⟩ := exists_rowCut (s.content.take a)
  obtain ⟨line, column⟩ := location_words ha cut
  refine ⟨above, row, cut, line, column, fun fits => ?_, fun fits => ?_,
    location_line_wraps ha, location_column_wraps ha⟩
  · rw [location_line small ha fits, place_of_rowCut ha cut, Nat.add_comm]
  · rw [location_column small ha fits, place_of_rowCut ha cut, Nat.add_comm 1]

/-- The second line of this source starts with a carriage return and ends with one. Only the first
is part of it, and `b` stands behind it. -/
theorem location_exact_returns :
    let s : Source := ⟨ascii "a.js", ascii "a\n\rb\r\n"⟩
    s.length < 2 ^ 32 ∧ (s.location 3).position.line.toNat = 2 ∧
      (s.location 3).position.column.toNat = 2 ∧ ¬ endsLine (s.content.drop 3) ∧
      (s.line 2)[1]? = some (byte 'b') := by
  intro s
  have small : s.length < 2 ^ 32 := by decide
  have printed : ¬ endsLine (s.content.drop 3) := by decide
  have column : (s.location 3).position.column.toNat = 2 := by decide +kernel
  obtain ⟨numbers, -, -, -, -, inverse⟩ := s.location_exact small
  obtain ⟨above, row, -, -, -, exact, -⟩ := numbers 3 (by decide)
  have line : (s.location 3).position.line.toNat = 2 := exact (before_end (by decide) small).1
  have shown := inverse 3 (by decide) printed
  rw [line, column] at shown
  exact ⟨small, line, column, printed, shown⟩

/-- The column behind a row of `2 ^ 32 - 1` bytes is not one more than they are: it is zero, and
comes before the first. -/
theorem location_exact_wraps :
    let s : Source := ⟨ascii "a.js", List.replicate 4294967295 (byte 'a')⟩
    s.length < 2 ^ 32 ∧ RowCut (s.content.take s.length) [] s.content ∧
      (s.location s.length).position.column.toNat ≠ 1 + s.content.length ∧
      (s.location s.length).position.line = (s.location 0).position.line ∧
      (s.location s.length).position.column < (s.location 0).position.column := by
  intro s
  have length : s.content.length = 4294967295 := List.length_replicate
  have noFeed : Byte.lineFeed ∉ s.content := fun feed =>
    absurd (List.eq_of_mem_replicate feed) (by decide)
  have whole : s.content.take s.length = s.content := List.take_length
  have cut : RowCut (s.content.take s.length) [] s.content := ⟨whole, by simp, noFeed⟩
  have filled : FillsRow (s.content.take s.length) := by
    rw [whole]
    exact ⟨congrArg (· + 1) length, noFeed⟩
  have column := location_column_wraps (Nat.le_refl _) filled
  have line := (location_words (Nat.le_refl _) cut).1
  rw [whole, List.count_eq_zero.mpr noFeed] at line
  obtain ⟨line', column'⟩ := @location_words s 0 [] [] (Nat.zero_le _) ⟨rfl, by simp, by simp⟩
  rw [line, line', column, column']
  refine ⟨?_, cut, ?_, rfl, by decide⟩
  · change s.content.length < _
    rw [length]
    decide
  · rw [UInt32.toNat_zero]
    omega

end Source
end ModuleLint
