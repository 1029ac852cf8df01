import ModuleLint.Proofs.Suggestion.Distance

/-!
The closest of some candidates.

Candidates are gone through in order, and only one that is closer than the best so far takes its
place, so the first of those at the least distance is left. A candidate is passed over without a
look where its length alone differs too much; it would not have been taken.
-/

namespace ModuleLint.Suggestion

/-- The first of the candidates at the least distance from a word. -/
def IsFirstClosest (input : Bytes) (candidates : List Bytes) (c : Bytes) : Prop :=
  ∃ front back, candidates = front ++ c :: back ∧
    (∀ d ∈ front, distance input c < distance input d) ∧
    ∀ d ∈ back, distance input c ≤ distance input d

/-- The closer of the best candidate so far, with its distance, and the next one. -/
def closer (input : Bytes) (best : Bytes × Nat) (candidate : Bytes) : Bytes × Nat :=
  if distance input candidate < best.2 then (candidate, distance input candidate) else best

section Closest

variable {input c : Bytes} {candidates : List Bytes} {best : Bytes × Nat} {maxDistance : UInt64}

/-- Where no candidate in front is as close. -/
lemma IsFirstClosest.cons {d : Bytes} (h : IsFirstClosest input candidates c)
    (farther : distance input c < distance input d) :
    IsFirstClosest input (d :: candidates) c := by
  obtain ⟨front, back, rfl, before, behind⟩ := h
  exact ⟨d :: front, back, rfl, List.forall_mem_cons.mpr ⟨farther, before⟩, behind⟩

/-- Either nothing is closer than the best at the start, or the first of the closest is left. -/
lemma foldl_closer (input : Bytes) (candidates : List Bytes) (best : Bytes × Nat) :
    ((∀ c ∈ candidates, best.2 ≤ distance input c) ∧
      candidates.foldl (closer input) best = best) ∨
    ∃ c, IsFirstClosest input candidates c ∧ distance input c < best.2 ∧
      candidates.foldl (closer input) best = (c, distance input c) := by
  induction candidates generalizing best with
  | nil => exact .inl ⟨List.forall_mem_nil _, rfl⟩
  | cons d rest ih =>
    rw [List.foldl_cons]
    by_cases nearer : distance input d < best.2
    · have taken : closer input best d = (d, distance input d) := if_pos nearer
      rw [taken]
      obtain ⟨farther, left⟩ | ⟨c, first, less, left⟩ := ih (d, distance input d)
      · exact .inr ⟨d, ⟨[], rest, rfl, List.forall_mem_nil _, farther⟩, nearer, left⟩
      · exact .inr ⟨c, first.cons less, Nat.lt_trans less nearer, left⟩
    · have kept : closer input best d = best := if_neg nearer
      have far := Nat.le_of_not_lt nearer
      rw [kept]
      obtain ⟨farther, left⟩ | ⟨c, first, less, left⟩ := ih best
      · exact .inl ⟨List.forall_mem_cons.mpr ⟨far, farther⟩, left⟩
      · exact .inr ⟨c, first.cons (Nat.lt_of_lt_of_le less far), less, left⟩

/-- What is passed over for its length would not have been taken. -/
lemma better_eq (bound : best.2 ≤ maxDistance.toNat + 1) (c : Bytes) :
    better input maxDistance best c = closer input best c := by
  unfold better
  split
  case isTrue apart =>
    have far := lengthGap_le input c
    exact (if_neg (by omega)).symm
  case isFalse => rfl

lemma closer_le (best : Bytes × Nat) (c : Bytes) : (closer input best c).2 ≤ best.2 := by
  unfold closer
  split
  case isTrue nearer => exact Nat.le_of_lt nearer
  case isFalse => exact Nat.le_refl _

lemma foldl_better (bound : best.2 ≤ maxDistance.toNat + 1) :
    candidates.foldl (better input maxDistance) best = candidates.foldl (closer input) best := by
  induction candidates generalizing best with
  | nil => rfl
  | cons c rest ih =>
    rw [List.foldl_cons, List.foldl_cons, better_eq bound]
    exact ih (Nat.le_trans (closer_le best c) bound)

lemma closest_eq (word : input ≠ []) (bounded : maxDistance.toNat + 1 < UInt64.size) :
    closest input candidates maxDistance =
      (candidates.foldl (closer input) ([], maxDistance.toNat + 1)).1 := by
  have next : (maxDistance + 1).toNat = maxDistance.toNat + 1 := by
    rw [UInt64.toNat_add]
    exact Nat.mod_eq_of_lt bounded
  unfold closest
  rw [if_neg (by simpa using word), next, foldl_better (Nat.le_refl _)]

/-- **The first of the closest candidates is suggested.** Unless the bound is the greatest number,
the suggestion for a word is the first candidate at the least distance, if that is within the bound,
and else empty; and passing over candidates for their length changes nothing. -/
theorem closest_first (word : input ≠ []) (bounded : maxDistance.toNat + 1 < UInt64.size) :
    ((∃ c, IsFirstClosest input candidates c ∧ distance input c ≤ maxDistance.toNat ∧
        closest input candidates maxDistance = c) ∨
      ((∀ c ∈ candidates, maxDistance.toNat < distance input c) ∧
        closest input candidates maxDistance = [])) ∧
    closest input candidates maxDistance =
      (candidates.foldl (closer input) ([], maxDistance.toNat + 1)).1 := by
  refine ⟨?_, closest_eq word bounded⟩
  rw [closest_eq word bounded]
  obtain ⟨farther, left⟩ | ⟨c, first, within, left⟩ :=
    foldl_closer input candidates ([], maxDistance.toNat + 1)
  · exact .inr ⟨farther, congrArg Prod.fst left⟩
  · exact .inl ⟨c, first, Nat.le_of_lt_succ within, congrArg Prod.fst left⟩

/-- Of `exclude`, `FORMAT` and `format` the second is suggested for `fromat`. -/
theorem closest_first_tie :
    let candidates := [ascii "exclude", ascii "FORMAT", ascii "format"]
    ascii "fromat" ≠ [] ∧ (3 : UInt64).toNat + 1 < UInt64.size ∧
      IsFirstClosest (ascii "fromat") candidates (ascii "FORMAT") ∧
      closest (ascii "fromat") candidates 3 = ascii "FORMAT" := by
  intro candidates
  have word : ascii "fromat" ≠ [] := by decide
  have bounded : (3 : UInt64).toNat + 1 < UInt64.size := by decide
  obtain ⟨result, -⟩ := @closest_first (ascii "fromat") candidates 3 word bounded
  have suggested : closest (ascii "fromat") candidates 3 = ascii "FORMAT" := by decide +kernel
  obtain ⟨c, first, -, left⟩ | ⟨-, left⟩ := result
  · rw [suggested] at left
    exact ⟨word, bounded, left ▸ first, suggested⟩
  · rw [suggested] at left
    exact absurd left (by decide)

end Closest

end ModuleLint.Suggestion
