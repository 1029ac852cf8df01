import Mathlib.Order.Bounds.Basic
import Mathlib.Order.Defs.LinearOrder
import Mathlib.Tactic.Common
import ModuleLint.Suggestion

/-!
The distance of words as a number of changes.

A change inserts, removes or replaces one byte. The least number of changes between two words is
given by a recursion on their first bytes. The rows of the computation go along the last bytes of
their beginnings instead, and the two agree because changes may be made from either end.
-/

namespace ModuleLint.Suggestion

/-! ### Changes -/

/-- One byte is inserted, removed or replaced. -/
inductive Change : Bytes → Bytes → Prop
  | insert (front back : Bytes) (b : UInt8) : Change (front ++ back) (front ++ b :: back)
  | remove (front back : Bytes) (b : UInt8) : Change (front ++ b :: back) (front ++ back)
  | replace (front back : Bytes) (b c : UInt8) :
    Change (front ++ b :: back) (front ++ c :: back)

/-- A number of changes, one after another, turns a word into another. -/
inductive Changes : Nat → Bytes → Bytes → Prop
  | none (s : Bytes) : Changes 0 s s
  | more {n : Nat} {s t u : Bytes} (first : Change s t) (rest : Changes n t u) :
    Changes (n + 1) s u

section Changes

variable {s t u : Bytes} {m n : Nat}

lemma Change.symm (h : Change s t) : Change t s := by
  cases h with
  | insert front back b => exact .remove front back b
  | remove front back b => exact .insert front back b
  | replace front back b c => exact .replace front back c b

lemma Change.cons (d : UInt8) (h : Change s t) : Change (d :: s) (d :: t) := by
  cases h with
  | insert front back b => exact .insert (d :: front) back b
  | remove front back b => exact .remove (d :: front) back b
  | replace front back b c => exact .replace (d :: front) back b c

lemma Change.reverse (h : Change s t) : Change s.reverse t.reverse := by
  cases h with
  | insert front back b =>
    simpa using Change.insert back.reverse front.reverse b
  | remove front back b =>
    simpa using Change.remove back.reverse front.reverse b
  | replace front back b c =>
    simpa using Change.replace back.reverse front.reverse b c

lemma Change.length (h : Change s t) : s.length ≤ t.length + 1 := by
  cases h <;> (simp only [List.length_append, List.length_cons]; omega)

lemma Changes.trans (h : Changes m s t) (h' : Changes n t u) : Changes (m + n) s u := by
  induction h with
  | none s => rwa [Nat.zero_add]
  | more first _ ih =>
    rw [Nat.add_right_comm]
    exact .more first (ih h')

lemma Changes.symm (h : Changes n s t) : Changes n t s := by
  induction h with
  | none s => exact .none s
  | more first _ ih => exact ih.trans (.more first.symm (.none _))

lemma Changes.cons (d : UInt8) (h : Changes n s t) : Changes n (d :: s) (d :: t) := by
  induction h with
  | none s => exact .none _
  | more first _ ih => exact .more (first.cons d) ih

lemma Changes.reverse (h : Changes n s t) : Changes n s.reverse t.reverse := by
  induction h with
  | none s => exact .none _
  | more first _ ih => exact .more first.reverse ih

lemma Changes.length (h : Changes n s t) : s.length ≤ t.length + n := by
  induction h with
  | none s => exact Nat.le_refl _
  | more first _ ih =>
    have one := first.length
    omega

lemma changes_zero_iff : Changes 0 s t ↔ s = t := by
  refine ⟨fun h => ?_, ?_⟩
  · cases h
    rfl
  · rintro rfl
    exact .none s

end Changes

/-! ### The least number of changes -/

/-- The least number of changes, by the first bytes of two words. -/
def leastChanges : Bytes → Bytes → Nat
  | [], t => t.length
  | c :: s, [] => s.length + 1
  | c :: s, d :: t =>
    min (min (leastChanges s (d :: t) + 1) (leastChanges (c :: s) t + 1))
      (leastChanges s t + if c = d then 0 else 1)
termination_by s t => s.length + t.length

section Least

variable {s t u : Bytes} {b c d : UInt8} {n : Nat}

lemma leastChanges_nil_left (t : Bytes) : leastChanges [] t = t.length := by rw [leastChanges]

lemma leastChanges_nil_right (s : Bytes) : leastChanges s [] = s.length := by
  cases s with
  | nil => exact leastChanges_nil_left []
  | cons c s => rw [leastChanges, List.length_cons]

lemma leastChanges_cons (c d : UInt8) (s t : Bytes) : leastChanges (c :: s) (d :: t) =
    min (min (leastChanges s (d :: t) + 1) (leastChanges (c :: s) t + 1))
      (leastChanges s t + if c = d then 0 else 1) := by rw [leastChanges]

/-- Two bytes differ by one change at most. -/
lemma differ_le (c d : UInt8) : (if c = d then 0 else 1) ≤ 1 := by split <;> omega

lemma leastChanges_self (s : Bytes) : leastChanges s s = 0 := by
  induction s with
  | nil => rw [leastChanges_nil_left, List.length_nil]
  | cons c s ih =>
    rw [leastChanges_cons, ih, if_pos rfl]
    exact Nat.min_zero _

lemma leastChanges_le_max (s t : Bytes) : leastChanges s t ≤ max s.length t.length := by
  fun_induction leastChanges s t with
  | case1 t => exact Nat.le_max_right _ _
  | case2 c s => exact Nat.le_max_left _ _
  | case3 c s d t _ _ both =>
    have one := differ_le c d
    simp only [List.length_cons]
    omega

/-- A word is written byte by byte. -/
lemma changes_of_nil (t : Bytes) : Changes t.length [] t := by
  induction t with
  | nil => exact .none []
  | cons d t ih => exact .more (.insert [] [] d) (ih.cons d)

/-- So many changes are enough. -/
lemma changes_leastChanges (s t : Bytes) : Changes (leastChanges s t) s t := by
  fun_induction leastChanges s t with
  | case1 t => exact changes_of_nil t
  | case2 c s => exact (changes_of_nil (c :: s)).symm
  | case3 c s d t remove insert both =>
    have removing : Changes (leastChanges s (d :: t) + 1) (c :: s) (d :: t) :=
      .more (.remove [] s c) remove
    have inserting : Changes (leastChanges (c :: s) t + 1) (c :: s) (d :: t) :=
      .more (.insert [] (c :: s) d) (insert.cons d)
    have keeping : Changes (leastChanges s t + if c = d then 0 else 1) (c :: s) (d :: t) := by
      split
      case isTrue same => exact same ▸ both.cons c
      case isFalse => exact .more (.replace [] s c d) (both.cons d)
    refine min_ind (motive := (Changes · (c :: s) (d :: t))) (fun _ => ?_) fun _ => keeping
    exact min_ind (motive := (Changes · (c :: s) (d :: t))) (fun _ => removing) fun _ => inserting

/-! One change changes the least number by one at most. -/

lemma leastChanges_cons_left_le (c : UInt8) (s u : Bytes) :
    leastChanges (c :: s) u ≤ leastChanges s u + 1 := by
  cases u with
  | nil => rw [leastChanges_nil_right, leastChanges_nil_right, List.length_cons]
  | cons d u =>
    rw [leastChanges_cons]
    omega

lemma leastChanges_cons_right_le (s u : Bytes) (d : UInt8) :
    leastChanges s (d :: u) ≤ leastChanges s u + 1 := by
  cases s with
  | nil => rw [leastChanges_nil_left, leastChanges_nil_left, List.length_cons]
  | cons c s =>
    rw [leastChanges_cons]
    omega

lemma leastChanges_le_cons_left (c : UInt8) (s u : Bytes) :
    leastChanges s u ≤ leastChanges (c :: s) u + 1 := by
  induction u with
  | nil =>
    rw [leastChanges_nil_right, leastChanges_nil_right, List.length_cons]
    omega
  | cons d u ih =>
    have right := leastChanges_cons_right_le s u d
    rw [leastChanges_cons]
    omega

/-- A first byte that is replaced. -/
lemma leastChanges_replace_le (b c : UInt8) (s u : Bytes) :
    leastChanges (b :: s) u ≤ leastChanges (c :: s) u + 1 := by
  induction u with
  | nil =>
    rw [leastChanges_nil_right, leastChanges_nil_right, List.length_cons, List.length_cons]
    omega
  | cons d u ih =>
    have one := differ_le b d
    rw [leastChanges_cons, leastChanges_cons]
    omega

/-- A change behind a first byte. -/
lemma leastChanges_behind_le (h : ∀ u, leastChanges s u ≤ leastChanges t u + 1) (c : UInt8)
    (u : Bytes) : leastChanges (c :: s) u ≤ leastChanges (c :: t) u + 1 := by
  induction u with
  | nil =>
    have lengths := h []
    rw [leastChanges_nil_right, leastChanges_nil_right] at lengths ⊢
    simp only [List.length_cons]
    omega
  | cons d u ih =>
    have remove := h (d :: u)
    have both := h u
    rw [leastChanges_cons, leastChanges_cons]
    omega

lemma Change.leastChanges_le (h : Change s t) (u : Bytes) :
    leastChanges s u ≤ leastChanges t u + 1 := by
  have behind (front : Bytes) {s t : Bytes} (h : ∀ u, leastChanges s u ≤ leastChanges t u + 1) :
      ∀ u, leastChanges (front ++ s) u ≤ leastChanges (front ++ t) u + 1 := by
    induction front with
    | nil => exact h
    | cons c front ih => exact leastChanges_behind_le ih c
  cases h with
  | insert front back b => exact behind front (leastChanges_le_cons_left b back) u
  | remove front back b => exact behind front (leastChanges_cons_left_le b back) u
  | replace front back b c => exact behind front (leastChanges_replace_le b c back) u

/-- Fewer changes are not enough. -/
lemma Changes.leastChanges_le (h : Changes n s t) : leastChanges s t ≤ n := by
  induction h with
  | none s => rw [leastChanges_self]
  | more first _ ih =>
    have one := first.leastChanges_le
    exact Nat.le_trans (one _) (Nat.succ_le_succ ih)

lemma isLeast_leastChanges (s t : Bytes) : IsLeast {n | Changes n s t} (leastChanges s t) :=
  ⟨changes_leastChanges s t, fun _ h => h.leastChanges_le⟩

/-- Words may be read backwards. -/
lemma leastChanges_reverse (s t : Bytes) :
    leastChanges s.reverse t.reverse = leastChanges s t := by
  have forward {s t : Bytes} : leastChanges s.reverse t.reverse ≤ leastChanges s t :=
    (changes_leastChanges s t).reverse.leastChanges_le
  refine Nat.le_antisymm forward ?_
  have backward := @forward s.reverse t.reverse
  rwa [List.reverse_reverse, List.reverse_reverse] at backward

/-- The recursion on the last bytes. -/
lemma leastChanges_concat (s t : Bytes) (c d : UInt8) : leastChanges (s ++ [c]) (t ++ [d]) =
    min (min (leastChanges s (t ++ [d]) + 1) (leastChanges (s ++ [c]) t + 1))
      (leastChanges s t + if c = d then 0 else 1) := by
  have behind (l : Bytes) (b : UInt8) : b :: l.reverse = (l ++ [b]).reverse := by simp
  have turned := leastChanges_cons c d s.reverse t.reverse
  simpa only [behind, leastChanges_reverse] using turned

end Least

/-! ### Rows -/

/-- The least numbers of changes from a word to `front` with more and more bytes of another behind
it. -/
def numbersBehind (s front : Bytes) : Bytes → List Nat
  | [] => []
  | d :: t => leastChanges s (front ++ [d]) :: numbersBehind s (front ++ [d]) t

/-- The least numbers of changes from a word to every beginning of another. -/
def numbers (s t : Bytes) : List Nat := leastChanges s [] :: numbersBehind s [] t

section Rows

variable {s t front : Bytes}

lemma cells_numbersBehind (c : UInt8) : cells c t (leastChanges s front)
    (leastChanges (s ++ [c]) front) (numbersBehind s front t) =
      numbersBehind (s ++ [c]) front t := by
  induction t generalizing front with
  | nil => rfl
  | cons d t ih =>
    rw [numbersBehind, numbersBehind, cells, ← leastChanges_concat, ih]

/-- The next row belongs to one more byte. -/
lemma nextRow_numbers (s t : Bytes) (c : UInt8) :
    nextRow t (numbers s t) c = numbers (s ++ [c]) t := by
  have corner : leastChanges s [] + 1 = leastChanges (s ++ [c]) [] := by
    rw [leastChanges_nil_right, leastChanges_nil_right, List.length_append, List.length_singleton]
  rw [numbers, nextRow, corner, cells_numbersBehind, numbers]

/-- The first row. -/
lemma numbers_nil (t : Bytes) : numbers [] t = List.range (t.length + 1) := by
  have behind (front : Bytes) : numbersBehind [] front t =
      List.range' (front.length + 1) t.length := by
    induction t generalizing front with
    | nil => rfl
    | cons d t ih =>
      rw [numbersBehind, ih, leastChanges_nil_left, List.length_append, List.length_singleton,
        List.length_cons, List.range'_succ]
  rw [numbers, behind, leastChanges_nil_left, List.range_eq_range', List.range'_succ]
  rfl

lemma foldl_nextRow (s front t : Bytes) :
    s.foldl (nextRow t) (numbers front t) = numbers (front ++ s) t := by
  induction s generalizing front with
  | nil => rw [List.append_nil, List.foldl_nil]
  | cons c s ih =>
    rw [List.foldl_cons, nextRow_numbers, ih, List.append_assoc, List.singleton_append]

/-- The last number of a row is for the whole word. -/
lemma getLastD_numbers (s t : Bytes) : (numbers s t).getLastD 0 = leastChanges s t := by
  have behind (front : Bytes) : (numbersBehind s front t).getLastD (leastChanges s front) =
      leastChanges s (front ++ t) := by
    induction t generalizing front with
    | nil => rw [numbersBehind, List.getLastD_nil, List.append_nil]
    | cons d t ih => rw [numbersBehind, List.getLastD_cons, ih, List.append_assoc,
        List.singleton_append]
  rw [numbers, List.getLastD_cons, behind, List.nil_append]

/-- The distance is the least number of changes between the words in small letters. -/
lemma distance_eq (s t : Bytes) : distance s t = leastChanges s.toLower t.toLower := by
  have length : t.length = t.toLower.length := (List.length_map _).symm
  rw [distance, length, ← numbers_nil, foldl_nextRow, List.nil_append, getLastD_numbers]

end Rows

/-! ### The distance -/

lemma length_toLower (s : Bytes) : s.toLower.length = s.length := List.length_map _

lemma changes_distance (s t : Bytes) : Changes (distance s t) s.toLower t.toLower :=
  distance_eq s t ▸ changes_leastChanges _ _

lemma distance_le {s t : Bytes} {n : Nat} (h : Changes n s.toLower t.toLower) :
    distance s t ≤ n := distance_eq s t ▸ h.leastChanges_le

/-- The lengths of words differ by no more than their distance. -/
lemma lengthGap_le (s t : Bytes) : lengthGap s t ≤ distance s t := by
  have there := (changes_distance s t).length
  have back := (changes_distance s t).symm.length
  simp only [length_toLower] at there back
  unfold lengthGap
  omega

lemma distance_comm_le (s t : Bytes) : distance s t ≤ distance t s :=
  distance_le (changes_distance t s).symm

/-- **The distance counts changes.** It is the least number of bytes to insert, remove or replace
that turns one word into the other, in small letters, and is given by the recursion on their first
bytes. So it is a metric on words in small letters, between the difference of their lengths and the
greater of them. -/
theorem distance_isLeast (s t u : Bytes) :
    IsLeast {n | Changes n s.toLower t.toLower} (distance s t) ∧
    distance s t = leastChanges s.toLower t.toLower ∧
    distance s t = distance t s ∧
    (distance s t = 0 ↔ s.toLower = t.toLower) ∧
    distance s u ≤ distance s t + distance t u ∧
    lengthGap s t ≤ distance s t ∧ distance s t ≤ max s.length t.length := by
  have least : IsLeast {n | Changes n s.toLower t.toLower} (distance s t) :=
    distance_eq s t ▸ isLeast_leastChanges _ _
  have zero : distance s t = 0 ↔ s.toLower = t.toLower := by
    rw [← changes_zero_iff, ← Nat.le_zero]
    refine ⟨fun none => ?_, distance_le⟩
    exact Nat.le_zero.mp none ▸ changes_distance s t
  have triangle : distance s u ≤ distance s t + distance t u :=
    distance_le ((changes_distance s t).trans (changes_distance t u))
  have longest : distance s t ≤ max s.length t.length := by
    rw [distance_eq, ← length_toLower s, ← length_toLower t]
    exact leastChanges_le_max _ _
  exact ⟨least, distance_eq s t, Nat.le_antisymm (distance_comm_le s t) (distance_comm_le t s),
    zero, triangle, lengthGap_le s t, longest⟩

end ModuleLint.Suggestion
