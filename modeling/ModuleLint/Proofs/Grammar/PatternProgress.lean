import ModuleLint.Grammar.Pattern
import ModuleLint.Proofs.Grammar.Progress

/-!
Progress of patterns.

The readers of the nonterminals inside take a token below `n`; those of a nonterminal, which take a
token before they use them, do so below `n + 1`.
-/

namespace ModuleLint.Grammar

open Reader

/-- Each reader takes a token when fewer than `n` are ahead. -/
def TakeBelow (n : Nat) (readers : Readers) : Prop := ∀ nt, Takes n (readers nt)

variable {n : Nat} {readers : Readers}

lemma propertyKey_takes : Takes n propertyKey := by
  unfold propertyKey
  refine .current fun t _ => .ite (fun ht => ?_) fun _ => moves_failHere
  have inside : t.kind ≠ .eof := by
    intro he
    rw [he] at ht
    rcases ht with h | h | h <;> cases h
  exact advance_takes.within fun u hu => by rw [hu]; exact inside

variable (hr : TakeBelow n readers)
include hr

lemma computedKey_takes : Takes n (computedKey readers) := by
  unfold computedKey
  refine (hr .assignment).then fun key => .bind ?_ fun _ => goes_pure
  exact expect_goes rfl

omit hr in
lemma objectRest_takes {start : Span} : Takes n (objectRest start) := by
  unfold objectRest
  exact .then (expect_takes rfl) fun t => node_goes

lemma computedEntry_takes {start : Span} : Takes n (computedEntry readers start) := by
  unfold computedEntry
  refine (computedKey_takes hr).then fun key => .bind (expect_goes rfl) fun _ => ?_
  exact (hr .bindingElement).goes.bind fun element => node_goes

lemma entryValue_goes {start : Span} {key : Token} : Goes n (entryValue readers start key) := by
  unfold entryValue
  refine .accept rfl (hr .bindingElement).goes (.either moves_fail ?_)
  refine .accept rfl ?_ goes_pure
  exact (hr .assignment).goes.bind fun fallback => node_goes

lemma objectEntry_takes : Takes n (objectEntry readers) := by
  unfold objectEntry
  refine .here fun start => .accept rfl objectRest_takes.goes ?_
  refine .accept rfl (computedEntry_takes hr).goes (propertyKey_takes.then fun key => ?_)
  exact (entryValue_goes hr).bind fun value => extended_goes

lemma objectPattern_takes : TakesInside (n + 1) (objectPattern readers) := by
  unfold objectPattern
  refine advance_takes.first fun brace => (list_goes (objectEntry_takes hr)).bind fun entries => ?_
  exact .bind (expect_goes rfl) fun _ => node_goes

lemma restElement_takes : TakesInside (n + 1) (restElement readers) := by
  unfold restElement
  exact advance_takes.first fun dots => (hr .bindingTarget).goes.bind fun target => node_goes

lemma listElement_takes : Takes n (listElement readers) := by
  unfold listElement
  refine .isAt rfl ?_ (hr .bindingElement)
  exact (restElement_takes hr).down

lemma arrayPattern_takes : TakesInside (n + 1) (arrayPattern readers) := by
  unfold arrayPattern
  refine advance_takes.first fun bracket => ?_
  refine (list_goes (listElement_takes hr)).bind fun elements => ?_
  exact .bind (expect_goes rfl) fun _ => node_goes

lemma pattern_takes : TakesInside (n + 1) (pattern readers) := by
  unfold pattern
  exact .isAt rfl (objectPattern_takes hr) (arrayPattern_takes hr)

lemma bindingTarget_takes : Takes (n + 1) (bindingTarget readers) := by
  unfold bindingTarget
  refine .isAtAny rfl (pattern_takes hr) ?_
  exact .then (expect_takes rfl) fun t => goes_pure

lemma bindingElement_takes : Takes (n + 1) (bindingElement readers) := by
  unfold bindingElement
  refine .here fun start => (bindingTarget_takes hr).first fun target => ?_
  exact .accept rfl ((hr .assignment).goes.bind fun fallback => node_goes) goes_pure

end ModuleLint.Grammar
