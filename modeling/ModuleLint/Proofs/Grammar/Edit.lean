import Mathlib.Tactic.Common
import ModuleLint.Proofs.Grammar.ExpressionRespan

/-!
Edits of token lists.

An edit changes spans, writes semicolons where they were left out, and may put other tokens in the
place of the last one. The readers look ahead over the tokens of arrow functions; that the written
semicolons do not matter to them is shown here.
-/

namespace ModuleLint

/-- A change of token lists. -/
structure Edit where
  spans : Respan
  /-- What takes the place of the last token, if anything. -/
  ending : Option (List Token)
  ending_ne_nil : ∀ l ∈ ending, l ≠ []
  /-- It cannot go on a finished statement. -/
  ending_noElse : ∀ l ∈ ending, ∀ t ∈ l.head?, t.kind ≠ .kwElse

/-- A semicolon may be missing before the token, and a statement may end before it. -/
structure Token.AllowsOmission (t : Token) : Prop where
  omissible : t.kind = .rbrace ∨ t.kind = .eof ∨ t.newlineBefore
  noColon : t.kind ≠ .colon
  noArrow : t.kind ≠ .arrow

/-- The token with `n` tokens behind it allows an omission before it. -/
def OmissionAt (l : List Token) (n : Nat) : Prop :=
  ∃ front t rest, l = front ++ t :: rest ∧ rest.length = n ∧ t.AllowsOmission

section Omissions

variable {t : Token} {l m rest : List Token} {n : Nat}

lemma OmissionAt.suffix (h : OmissionAt l n) (hl : l <:+ m) : OmissionAt m n := by
  obtain ⟨front, t, rest, rfl, hn, allows⟩ := h
  obtain ⟨before, rfl⟩ := hl
  exact ⟨before ++ front, t, rest, (List.append_assoc ..).symm, hn, allows⟩

lemma OmissionAt.head (h : OmissionAt (t :: rest) rest.length) : t.AllowsOmission := by
  obtain ⟨front, u, more, split, hn, allows⟩ := h
  cases front with
  | nil =>
    cases split
    exact allows
  | cons v front =>
    rw [List.cons_append] at split
    have length := congrArg List.length (List.cons.inj split).2
    rw [List.length_append, List.length_cons] at length
    omega

lemma OmissionAt.tail (h : OmissionAt (t :: rest) n) (hn : n < rest.length) :
    OmissionAt rest n := by
  obtain ⟨front, u, more, split, hm, allows⟩ := h
  cases front with
  | nil =>
    cases split
    omega
  | cons v front => exact ⟨front, u, more, (List.cons.inj split).2, hm, allows⟩

end Omissions

namespace Edit

/-- The end is left as it is. -/
def respanning (spans : Respan) : Edit where
  spans := spans
  ending := none
  ending_ne_nil l hl := absurd hl (Option.not_mem_none l)
  ending_noElse l hl := absurd hl (Option.not_mem_none l)

/-- A semicolon that an edit writes. It looks like any other under the change of spans. -/
structure Semicolon (E : Edit) where
  token : Token
  /-- How many tokens stand behind the one before which it is written. -/
  place : Nat
  kind : token.kind = .semi
  span : ∀ span, E.spans.span span = token.span
  /-- The end is left as it is where semicolons are written. -/
  noEnding : E.ending = none

variable (E : Edit)

/-- The semicolons written before the token with `n` tokens behind it. -/
def written (c : List E.Semicolon) (n : Nat) : List Token :=
  (c.filter (·.place = n)).map (·.token)

/-- The edited tokens. -/
def apply (c : List E.Semicolon) : List Token → List Token
  | [] => []
  | [t] => E.written c 0 ++ E.ending.getD [t.respan E.spans]
  | t :: u :: rest => E.written c (rest.length + 1) ++ t.respan E.spans :: apply c (u :: rest)

variable {E} {c : List E.Semicolon} {t : Token} {l rest : List Token} {n : Nat}

/-! ### Edited tokens -/

lemma written_kind (h : t ∈ E.written c n) : t.kind = .semi := by
  obtain ⟨m, -, rfl⟩ := List.mem_map.mp h
  exact m.kind

lemma written_span (h : t ∈ E.written c n) (span : Span) : E.spans.span span = t.span := by
  obtain ⟨m, -, rfl⟩ := List.mem_map.mp h
  exact m.span span

lemma written_eq_nil (free : ∀ m ∈ c, m.place ≠ n) : E.written c n = [] := by
  unfold written
  rw [List.map_eq_nil_iff, List.filter_eq_nil_iff]
  exact fun m hm here => free m hm (of_decide_eq_true here)

lemma written_ne_nil {m : E.Semicolon} (hm : m ∈ c) (here : m.place = n) :
    E.written c n ≠ [] := by
  refine List.ne_nil_of_mem (a := m.token) (List.mem_map.mpr ⟨m, List.mem_filter.mpr ⟨hm, ?_⟩, rfl⟩)
  exact decide_eq_true here

lemma apply_cons (h : rest = [] → E.ending = none) :
    E.apply c (t :: rest) = E.written c rest.length ++ t.respan E.spans :: E.apply c rest := by
  cases rest with
  | nil =>
    change E.written c 0 ++ E.ending.getD [t.respan E.spans] = _
    rw [h rfl]
    rfl
  | cons u rest => rfl

lemma apply_free (h : rest = [] → E.ending = none) (free : ∀ m ∈ c, m.place ≠ rest.length) :
    E.apply c (t :: rest) = t.respan E.spans :: E.apply c rest := by
  rw [apply_cons h, written_eq_nil free, List.nil_append]

/-- The first of some tokens is left alone or a semicolon is written before it. -/
lemma apply_cases (c : List E.Semicolon) (t : Token) (h : rest = [] → E.ending = none) :
    ((∀ m ∈ c, m.place ≠ rest.length) ∧
      E.apply c (t :: rest) = t.respan E.spans :: E.apply c rest) ∨
    ∃ m ∈ c, m.place = rest.length ∧ ∃ u more, E.apply c (t :: rest) = u :: more ∧
      u.kind = .semi ∧ ∀ span, E.spans.span span = u.span := by
  by_cases free : ∀ m ∈ c, m.place ≠ rest.length
  · exact .inl ⟨free, apply_free h free⟩
  · obtain ⟨m, hm, here⟩ : ∃ m ∈ c, m.place = rest.length := by simpa using free
    obtain ⟨u, more, first⟩ := List.exists_cons_of_ne_nil (written_ne_nil hm here)
    have member : u ∈ E.written c rest.length := first ▸ List.mem_cons_self
    have before : E.apply c (t :: rest) = u :: (more ++ t.respan E.spans :: E.apply c rest) := by
      rw [apply_cons h, first, List.cons_append]
    exact .inr ⟨m, hm, here, u, _, before, written_kind member, written_span member⟩

lemma length_le_apply (c : List E.Semicolon) (l : List Token) :
    l.length ≤ (E.apply c l).length := by
  fun_induction apply E c l with
  | case1 => exact Nat.le_refl _
  | case2 t =>
    rw [List.length_append, List.length_singleton]
    cases h : E.ending with
    | none => exact Nat.le_add_left _ _
    | some l =>
      have positive := List.length_pos_iff.mpr (E.ending_ne_nil l h)
      rw [Option.getD_some]
      omega
  | case3 t u rest ih =>
    rw [List.length_cons, List.length_append, List.length_cons (a := t.respan E.spans)]
    omega

lemma apply_ne_nil (h : l ≠ []) : E.apply c l ≠ [] := by
  have long := length_le_apply c l
  have positive := List.length_pos_iff.mpr h
  exact List.length_pos_iff.mp (by omega)

/-- A semicolon that is written before some tokens changes none of them. -/
lemma apply_outside {m : E.Semicolon} (h : l.length ≤ m.place) :
    E.apply (m :: c) l = E.apply c l := by
  have outside {n : Nat} (hn : n < l.length) : E.written (m :: c) n = E.written c n := by
    unfold written
    rw [List.filter_cons_of_neg]
    simp only [decide_eq_true_eq]
    omega
  induction l with
  | nil => rfl
  | cons t rest ih =>
    have behind := ih (by rw [List.length_cons] at h; omega) fun hn => outside (by
      rw [List.length_cons]; omega)
    cases rest with
    | nil => rw [apply, apply, outside (Nat.succ_pos _)]
    | cons u rest => rw [apply, apply, behind, outside (by simp)]

/-! ### Arrows ahead -/

open Grammar

/-- Semicolons before some tokens do not matter to the search for the closing bracket. -/
lemma closesBeforeArrow_written (depth : Nat) (l : List Token) :
    closesBeforeArrow depth (E.written c n ++ l) = closesBeforeArrow depth l := by
  have skips (before : List Token) (semi : ∀ t ∈ before, t.kind = .semi) :
      closesBeforeArrow depth (before ++ l) = closesBeforeArrow depth l := by
    induction before with
    | nil => rfl
    | cons t before ih =>
      obtain ⟨kind, rest⟩ := List.forall_mem_cons.mp semi
      rw [List.cons_append, closesBeforeArrow, kind]
      exact ih rest
  exact skips _ fun t ht => written_kind ht

/-- The semicolons written among some tokens stand where they were left out. -/
def Fits (c : List E.Semicolon) (l : List Token) : Prop :=
  ∀ m ∈ c, m.place < l.length → OmissionAt l m.place

lemma Fits.tail (h : Fits c (t :: rest)) : Fits c rest :=
  fun m hm inside => (h m hm (Nat.lt_succ_of_lt inside)).tail inside

/-- No semicolon is written before an arrow. -/
lemma head_arrow (h : Fits c l) (none : E.ending = none) :
    (E.apply c l).head?.any (·.kind == .arrow) = l.head?.any (·.kind == .arrow) := by
  cases l with
  | nil => rfl
  | cons t rest =>
    obtain ⟨-, apart⟩ | ⟨m, hm, here, u, more, before, semi, -⟩ := apply_cases c t fun _ => none
    · rw [apart]
      rfl
    · have omission := h m hm (by rw [here]; exact Nat.lt_succ_self _)
      rw [here] at omission
      have noArrow := omission.head.noArrow
      simp [before, semi, noArrow]

lemma closesBeforeArrow_apply (h : Fits c l) (none : E.ending = none) (depth : Nat) :
    closesBeforeArrow depth (E.apply c l) = closesBeforeArrow depth l := by
  induction l generalizing depth with
  | nil => rfl
  | cons t rest ih =>
    rw [apply_cons fun _ => none, closesBeforeArrow_written, closesBeforeArrow,
      closesBeforeArrow, head_arrow h.tail none, show (t.respan E.spans).kind = t.kind from rfl]
    simp only [ih h.tail]

/-- Whether an arrow function starts at a token does not depend on the semicolons behind it. -/
lemma startsArrow_apply (h : Fits c (t :: rest)) (none : E.ending = none)
    (free : ∀ m ∈ c, m.place ≠ rest.length) :
    startsArrow (E.apply c (t :: rest)) = startsArrow (t :: rest) := by
  have closes := closesBeforeArrow_apply h none 0
  rw [apply_free (fun _ => none) free] at closes ⊢
  rw [startsArrow, startsArrow, closes, head_arrow h.tail none]
  rfl

end Edit

end ModuleLint
