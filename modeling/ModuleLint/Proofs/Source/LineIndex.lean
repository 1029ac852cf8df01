import Mathlib.Data.List.DropRight
import Mathlib.Data.List.GetD
import ModuleLint.Proofs.Token.Tiling

/-!
The index of lines and the search in it.

A text is cut behind its last line feed: what is above tells how many lines start before the end of
the text, and its length where the last of them does. The starts of the lines of a source are those
up to a place and those behind it, and the search finds where the former end. So a location is told
by the cut of what stands before it, and a line by the text between two starts.
-/

namespace ModuleLint

/-! ### Rows -/

/-- A text, cut behind its last line feed. -/
structure RowCut (text above row : Bytes) : Prop where
  whole : text = above ++ row
  starts : ∀ b ∈ above.getLast?, b = Byte.lineFeed
  oneLine : Byte.lineFeed ∉ row

lemma exists_rowCut (text : Bytes) : ∃ above row, RowCut text above row := by
  induction text using List.reverseRecOn with
  | nil => exact ⟨[], [], rfl, by simp, by simp⟩
  | append_singleton text b ih =>
    by_cases feed : b = Byte.lineFeed
    · exact ⟨text ++ [b], [], (List.append_nil _).symm, by simpa using feed, by simp⟩
    · obtain ⟨above, row, rfl, starts, oneLine⟩ := ih
      exact ⟨above, row ++ [b], List.append_assoc _ _ _, starts, by
        simpa using ⟨oneLine, Ne.symm feed⟩⟩

lemma takeWhile_row {row tail : Bytes} (oneLine : Byte.lineFeed ∉ row) :
    (row ++ tail).takeWhile (· != Byte.lineFeed) =
      row ++ tail.takeWhile (· != Byte.lineFeed) := by
  refine List.takeWhile_append_of_pos fun b hb => ?_
  have noFeed : b ≠ Byte.lineFeed := fun feed => oneLine (feed ▸ hb)
  simpa using noFeed

lemma RowCut.count {text above row : Bytes} (h : RowCut text above row) :
    text.count Byte.lineFeed = above.count Byte.lineFeed := by
  rw [h.whole, List.count_append, List.count_eq_zero.mpr h.oneLine, Nat.add_zero]

namespace Source

variable {s : Source} {text above row tail u v : Bytes} {a x offset : Nat}

/-! ### Starts of lines -/

lemma lineStartsFrom_append (offset : Nat) (u v : Bytes) : lineStartsFrom offset (u ++ v) =
    lineStartsFrom offset u ++ lineStartsFrom (offset + u.length) v := by
  induction u generalizing offset with
  | nil => rfl
  | cons b u ih =>
    rw [List.cons_append, lineStartsFrom, lineStartsFrom, ih, List.length_cons, Nat.add_assoc,
      Nat.add_comm 1]
    split <;> rfl

lemma length_lineStartsFrom (offset : Nat) (text : Bytes) :
    (lineStartsFrom offset text).length = text.count Byte.lineFeed := by
  induction text generalizing offset with
  | nil => rfl
  | cons b text ih =>
    rw [lineStartsFrom, List.count_cons]
    split
    case isTrue feed => rw [List.length_cons, ih, feed, BEq.rfl, if_pos rfl]
    case isFalse noFeed => rw [ih, beq_eq_false_iff_ne.mpr noFeed, if_neg Bool.false_ne_true]; rfl

lemma length_starts (text : Bytes) :
    (0 :: lineStartsFrom 0 text).length = text.count Byte.lineFeed + 1 := by
  rw [List.length_cons, length_lineStartsFrom]

lemma mem_lineStartsFrom (h : x ∈ lineStartsFrom offset text) :
    offset < x ∧ x ≤ offset + text.length := by
  induction text generalizing offset with
  | nil => cases h
  | cons b text ih =>
    rw [lineStartsFrom] at h
    rw [List.length_cons]
    split at h
    case isTrue =>
      obtain rfl | more := List.mem_cons.mp h
      · omega
      · have inside := ih more
        omega
    case isFalse =>
      have inside := ih h
      omega

lemma lineStarts_append (content : s.content = u ++ v) :
    s.lineStarts = (0 :: lineStartsFrom 0 u) ++ lineStartsFrom u.length v := by
  rw [lineStarts, content, lineStartsFrom_append, Nat.zero_add]
  rfl

lemma length_lineStarts (s : Source) : s.lineStarts.length = s.content.count Byte.lineFeed + 1 :=
  length_starts s.content

/-- The last line above starts where the row does. -/
lemma last_start (starts : ∀ b ∈ above.getLast?, b = Byte.lineFeed) :
    (0 :: lineStartsFrom 0 above).getD (above.count Byte.lineFeed) 0 = above.length := by
  obtain rfl | ⟨front, b, rfl⟩ := above.eq_nil_or_concat
  · rfl
  · have feed : b = Byte.lineFeed := starts b (by simp)
    rw [feed, List.concat_eq_append, List.count_append, List.count_singleton_self,
      List.getD_cons_succ, lineStartsFrom_append, ← length_lineStartsFrom 0 front,
      List.getD_append_right _ _ _ _ (Nat.le_refl _), Nat.sub_self, List.length_append,
      Nat.zero_add]
    rfl

/-- The row behind what is above starts where the index says. -/
lemma lineStarts_getD (content : s.content = above ++ tail)
    (starts : ∀ b ∈ above.getLast?, b = Byte.lineFeed) :
    s.lineStarts.getD (above.count Byte.lineFeed) 0 = above.length := by
  have inside : above.count Byte.lineFeed < (0 :: lineStartsFrom 0 above).length := by
    rw [length_starts]
    exact Nat.lt_succ_self _
  rw [lineStarts_append content, List.getD_append _ _ _ _ inside, last_start starts]

/-! ### The search -/

/-- The search keeps the end of the numbers not above `n` between `low` and `low + size`. -/
lemma upperBound_append {front back : List Nat} {n : Nat} (below : ∀ x ∈ front, x ≤ n)
    (beyond : ∀ x ∈ back, n < x) {low size : Nat} (left : low ≤ front.length)
    (right : front.length ≤ low + size) (inside : low + size ≤ (front ++ back).length) :
    upperBound (front ++ back) n low size = front.length := by
  induction size using Nat.strong_induction_on generalizing low with
  | _ size ih =>
    rw [upperBound]
    split
    case isTrue empty => omega
    case isFalse some =>
      have middle : low + size / 2 < (front ++ back).length := by omega
      dsimp only
      rw [List.getD_eq_getElem _ _ middle]
      -- how the number in the middle compares tells which of the two lists it is from
      split
      case isTrue above =>
        have notFront : front.length ≤ low + size / 2 := by
          by_contra inFront
          have inside : low + size / 2 < front.length := Nat.lt_of_not_le inFront
          rw [List.getElem_append_left inside] at above
          exact Nat.not_le_of_lt above (below _ (List.getElem_mem inside))
        exact ih _ (by omega) left notFront (by omega)
      case isFalse notAbove =>
        have inFront : low + size / 2 < front.length := by
          by_contra notFront
          rw [List.getElem_append_right (Nat.le_of_not_lt notFront)] at notAbove
          exact notAbove (beyond _ (List.getElem_mem _))
        exact ih _ (by omega) inFront (by omega) (by omega)

/-- The lines that start no later than an offset are one more than the line feeds before it. -/
lemma upperBound_lineStarts (s : Source) (a : Nat) :
    upperBound s.lineStarts a 0 s.lineStarts.length =
      (s.content.take a).count Byte.lineFeed + 1 := by
  rw [lineStarts_append (List.take_append_drop a s.content).symm, ← length_starts]
  refine upperBound_append (fun x hx => ?_) (fun x hx => ?_) (Nat.zero_le _) (by simp) (by simp)
  · obtain rfl | before := List.mem_cons.mp hx
    · exact Nat.zero_le _
    · have inside := (mem_lineStartsFrom before).2
      rw [Nat.zero_add] at inside
      exact Nat.le_trans inside (List.length_take_le _ _)
  · -- behind a source that ends before the offset no line starts
    have behind := mem_lineStartsFrom hx
    rw [List.length_take, List.length_drop] at behind
    omega

/-- The location of an offset is told by the cut of the bytes before it. -/
lemma location_of_rowCut (cut : RowCut (s.content.take a) above row) :
    s.location a = ⟨s.name, ⟨((s.content.take a).count Byte.lineFeed).toUInt32 + 1,
      (a - above.length).toUInt32 + 1, a.toUInt32⟩, 1⟩ := by
  have content : s.content = above ++ (row ++ s.content.drop a) := by
    rw [← List.append_assoc, ← cut.whole, List.take_append_drop]
  unfold location
  dsimp only
  rw [upperBound_lineStarts, Nat.add_sub_cancel, cut.count, lineStarts_getD content cut.starts]

/-! ### Lines -/

lemma rdropWhile_row (oneLine : Byte.lineFeed ∉ row) :
    row.rdropWhile (fun b => b == Byte.lineFeed || b == Byte.carriageReturn) =
      row.rdropWhile (· == Byte.carriageReturn) := by
  induction row using List.reverseRecOn with
  | nil => rfl
  | append_singleton row b ih =>
    obtain ⟨noFeeds, noFeed⟩ : Byte.lineFeed ∉ row ∧ Byte.lineFeed ≠ b := by simpa using oneLine
    rw [List.rdropWhile_concat, List.rdropWhile_concat, ih noFeeds,
      beq_eq_false_iff_ne.mpr noFeed.symm, Bool.false_or]

/-- The last line goes on to the end of the source. -/
lemma line_last (content : s.content = above ++ row)
    (starts : ∀ b ∈ above.getLast?, b = Byte.lineFeed) (oneLine : Byte.lineFeed ∉ row) :
    s.line (above.count Byte.lineFeed + 1) = row.rdropWhile (· == Byte.carriageReturn) := by
  have lines : s.lineStarts.length = above.count Byte.lineFeed + 1 := by
    rw [length_lineStarts, content, List.count_append, List.count_eq_zero.mpr oneLine, Nat.add_zero]
  unfold line
  dsimp only
  rw [if_neg (by omega), if_neg (by omega), Nat.add_sub_cancel, lineStarts_getD content starts,
    length, content, List.length_append, slice_piece (content.trans (List.append_nil _).symm),
    ← rdropWhile_row oneLine]
  rfl

/-- The line feed that ends a line is dropped with the carriage returns before it. -/
lemma line_ended (content : s.content = above ++ (row ++ Byte.lineFeed :: tail))
    (starts : ∀ b ∈ above.getLast?, b = Byte.lineFeed) (oneLine : Byte.lineFeed ∉ row) :
    s.line (above.count Byte.lineFeed + 1) = row.rdropWhile (· == Byte.carriageReturn) := by
  have through : s.content = (above ++ (row ++ [Byte.lineFeed])) ++ tail := by simp [content]
  have ends : ∀ b ∈ (above ++ (row ++ [Byte.lineFeed])).getLast?, b = Byte.lineFeed := by simp
  have feeds : (above ++ (row ++ [Byte.lineFeed])).count Byte.lineFeed =
      above.count Byte.lineFeed + 1 := by
    simp [List.count_append, List.count_eq_zero.mpr oneLine]
  have next := lineStarts_getD through ends
  rw [feeds, List.length_append] at next
  have lines : above.count Byte.lineFeed + 1 < s.lineStarts.length := by
    rw [length_lineStarts, through, List.count_append, feeds]
    omega
  unfold line
  dsimp only
  rw [if_neg (by omega), if_pos lines, Nat.add_sub_cancel, next, lineStarts_getD content starts,
    slice_piece through, ← rdropWhile_row oneLine]
  exact List.rdropWhile_concat_pos _ _ _ rfl

/-- Behind what is above it, the line goes on to the next line feed. -/
lemma line_of_starts (content : s.content = above ++ tail)
    (starts : ∀ b ∈ above.getLast?, b = Byte.lineFeed) :
    s.line (above.count Byte.lineFeed + 1) =
      (tail.takeWhile (· != Byte.lineFeed)).rdropWhile (· == Byte.carriageReturn) := by
  have oneLine : Byte.lineFeed ∉ tail.takeWhile (· != Byte.lineFeed) := by
    intro feed
    have noFeed := List.mem_takeWhile_imp feed
    exact bne_iff_ne.mp noFeed rfl
  rw [← @List.takeWhile_append_dropWhile _ (· != Byte.lineFeed) tail] at content
  cases behind : tail.dropWhile (· != Byte.lineFeed) with
  | nil =>
    rw [behind, List.append_nil] at content
    exact line_last content starts oneLine
  | cons b more =>
    obtain rfl : b = Byte.lineFeed := by
      simpa [behind] using List.head?_dropWhile_not (· != Byte.lineFeed) tail
    rw [behind] at content
    exact line_ended content starts oneLine

/-- The line of a place starts with the row before it. -/
lemma line_of_rowCut {text : Bytes} (content : s.content = text ++ tail)
    (cut : RowCut text above row) :
    s.line (text.count Byte.lineFeed + 1) =
      (row ++ tail.takeWhile (· != Byte.lineFeed)).rdropWhile (· == Byte.carriageReturn) := by
  have whole : s.content = above ++ (row ++ tail) := by
    rw [content, cut.whole, List.append_assoc]
  rw [cut.count, line_of_starts whole cut.starts, takeWhile_row cut.oneLine]

end Source

end ModuleLint
