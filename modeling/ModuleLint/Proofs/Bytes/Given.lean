import Mathlib.Tactic.Common
import ModuleLint.Bytes

/-!
What texts give, and which of several holds.

`gives t a` is the rule by which a text `t` gives `a`. Where each text overrules those before it,
`LastGives` and `NoneGives` tell what is left in the end without going through the texts in order.
-/

namespace ModuleLint

/-! ### Texts of two parts -/

namespace Bytes

variable {sep : UInt8} {s a b : Bytes}

lemma cut?_append (h : sep ∉ a) (b : Bytes) : cut? sep (a ++ sep :: b) = some (a, b) := by
  induction a with
  | nil => simp [cut?]
  | cons x a ih =>
    rw [List.mem_cons, not_or] at h
    rw [List.cons_append, cut?, if_neg (Ne.symm h.1), ih h.2]
    rfl

/-- Without the separator there is nothing to cut. -/
lemma cut?_eq_none (h : sep ∉ s) : cut? sep s = none := by
  induction s with
  | nil => rfl
  | cons x s ih =>
    rw [List.mem_cons, not_or] at h
    rw [cut?, if_neg (Ne.symm h.1), ih h.2]
    rfl

end Bytes

/-! ### The last of several texts -/

section Given

variable {α : Type} {gives : Bytes → α → Prop} {read? : Bytes → Option α} {texts : List Bytes}
  {otherwise a : α}

/-- The last text that gives anything gives `a`. -/
def LastGives (gives : Bytes → α → Prop) (texts : List Bytes) (a : α) : Prop :=
  ∃ before text after, texts = before ++ text :: after ∧ gives text a ∧
    ∀ t ∈ after, ∀ b, ¬ gives t b

def NoneGives (gives : Bytes → α → Prop) (texts : List Bytes) : Prop :=
  ∀ t ∈ texts, ∀ b, ¬ gives t b

/-- What the last text that gives anything gives, or else what holds without. -/
def LastGivesOr (gives : Bytes → α → Prop) (otherwise : α) (texts : List Bytes) (a : α) : Prop :=
  LastGives gives texts a ∨ NoneGives gives texts ∧ a = otherwise

/-- A function that reads off each text what it gives finds what the last one gives. -/
lemma lastGives_iff (reads : ∀ t a, read? t = some a ↔ gives t a) :
    LastGives gives texts a ↔ (texts.filterMap read?).getLast? = some a := by
  constructor
  · rintro ⟨before, text, after, rfl, given, silent⟩
    have behind : after.filterMap read? = [] := List.filterMap_eq_nil_iff.mpr fun t ht =>
      Option.eq_none_iff_forall_ne_some.mpr fun b hb => silent t ht b ((reads t b).mp hb)
    rw [List.filterMap_append, List.filterMap_cons_some ((reads text a).mpr given), behind,
      List.getLast?_concat]
  · intro last
    obtain ⟨front, split⟩ := List.getLast?_eq_some_iff.mp last
    obtain ⟨before, rest, rfl, -, last⟩ := List.filterMap_eq_append_iff.mp split
    obtain ⟨between, text, after, rfl, -, given, silent⟩ := List.filterMap_eq_cons_iff.mp last
    refine ⟨before ++ between, text, after, (List.append_assoc _ _ _).symm, (reads text a).mp given,
      fun t ht b hb => ?_⟩
    have none := List.filterMap_eq_nil_iff.mp silent t ht
    rw [(reads t b).mpr hb] at none
    cases none

lemma noneGives_iff (reads : ∀ t a, read? t = some a ↔ gives t a) :
    NoneGives gives texts ↔ (texts.filterMap read?).getLast? = none := by
  rw [List.getLast?_eq_none_iff, List.filterMap_eq_nil_iff]
  refine forall_congr' fun t => imp_congr_right fun _ => ?_
  rw [Option.eq_none_iff_forall_ne_some]
  exact forall_congr' fun b => not_congr (reads t b).symm

lemma lastGivesOr_iff (reads : ∀ t a, read? t = some a ↔ gives t a) :
    LastGivesOr gives otherwise texts a ↔
      (texts.filterMap read?).getLast?.getD otherwise = a := by
  rw [LastGivesOr, lastGives_iff reads, noneGives_iff reads]
  cases (texts.filterMap read?).getLast? with
  | none => simp [eq_comm]
  | some b => simp

end Given

end ModuleLint
