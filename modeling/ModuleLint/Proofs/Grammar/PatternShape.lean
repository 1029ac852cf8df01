import ModuleLint.Grammar.Pattern
import ModuleLint.Proofs.Grammar.Yield
import ModuleLint.Proofs.Syntax.Shape

/-!
The shape of patterns.

The readers of a nonterminal yield well-formed nodes of its class, given that those inside it do.
-/

namespace ModuleLint

open Node

/-- The class of the nodes that a nonterminal stands for. -/
def Nonterminal.Class : Nonterminal → Node → Prop
  | .statement => IsStatement
  | .bindingTarget => IsTarget
  | .bindingElement => IsElement
  | _ => IsExpression

namespace Grammar

open Reader

/-- Each reader yields well-formed nodes of the class of its nonterminal. -/
def YieldShapes (readers : Readers) : Prop := ∀ nt, Yields (readers nt) (As nt.Class)

lemma nameOf_bare {t : Token} : (nameOf t).As IsBareName := as_bareName

variable {readers : Readers} (hr : YieldShapes readers)
include hr

lemma computedKey_yields : Yields (computedKey readers) (As IsExpression) := by
  unfold computedKey
  exact .bind (hr .assignment) fun key hk => .skip fun _ => yields_pure hk

omit hr in
lemma objectRest_yields (start : Span) : Yields (objectRest start) (As IsEntry) := by
  unfold objectRest
  refine .skip fun t => yields_node fun span => ⟨.inl rfl, .mk ⟨nameOf_bare.isTarget.1, trivial⟩ ?_⟩
  simpa using nameOf_bare.2

lemma computedEntry_yields (start : Span) : Yields (computedEntry readers start) (As IsEntry) := by
  unfold computedEntry
  refine .bind (computedKey_yields hr) fun key hk => .skip fun _ => ?_
  refine .bind (hr .bindingElement) fun element he => yields_node fun span => ?_
  refine ⟨.inr (.inr ⟨rfl, key, element, rfl, he.1⟩), .mk ⟨hk.1, .inr (.inl he.1), trivial⟩ ?_⟩
  simp [hk.2, he.2]

omit hr in
/-- The name of a key with a default value. -/
lemma defaultedKey_yields (start : Span) (key : Token) {fallback : Node}
    (h : fallback.As IsExpression) :
    Yields (node .defaultValue start [nameOf key, fallback]) (As IsElement) := by
  refine yields_node fun span => ⟨.inr rfl, .mk ⟨nameOf_bare.isTarget.1, h.1, trivial⟩ ?_⟩
  simpa [h.2] using nameOf_bare.2

lemma entryValue_yields (start : Span) (key : Token) :
    Yields (entryValue readers start key) (As IsElement) := by
  unfold entryValue
  refine .skip fun _ => .either (hr .bindingElement) (.either yields_fail ?_)
  refine .skip fun _ => .either ?_ (yields_pure nameOf_bare.isTarget.isElement)
  exact .bind (hr .assignment) fun fallback hf => defaultedKey_yields start key hf

lemma objectEntry_yields : Yields (objectEntry readers) (As IsEntry) := by
  unfold objectEntry
  refine .skip fun start => .skip fun _ => .either (objectRest_yields start) ?_
  refine .skip fun _ => .either (computedEntry_yields hr start) (.skip fun key => ?_)
  refine .bind (entryValue_yields hr start key) fun value hv => yields_extended fun span => ?_
  exact ⟨.inr (.inl ⟨rfl, value, rfl, hv.1⟩), .mk (.inr hv.1) (by simp [hv.2])⟩

lemma objectPattern_yields : Yields (objectPattern readers) (As IsPattern) := by
  unfold objectPattern
  refine .skip fun brace => .bind (.list nofun (objectEntry_yields hr)) fun entries he => ?_
  refine .skip fun _ => yields_node fun span => ⟨.inl rfl, .mk (fun n hn => (he n hn).1) ?_⟩
  exact fun n hn => (he n hn).2

lemma restElement_yields : Yields (restElement readers) (As (·.kind = .rest)) := by
  unfold restElement
  refine .skip fun dots => .bind (hr .bindingTarget) fun target ht => yields_node fun span => ?_
  exact ⟨rfl, .mk ⟨ht.1, trivial⟩ (by simp [ht.2])⟩

lemma listElement_yields : Yields (listElement readers) (As IsParameter) := by
  unfold listElement
  refine .skip fun _ => .either ((restElement_yields hr).mono fun n hn => hn.mono .inr) ?_
  exact (hr .bindingElement).mono fun n hn => hn.isParameter

lemma arrayPattern_yields : Yields (arrayPattern readers) (As IsPattern) := by
  unfold arrayPattern
  refine .skip fun bracket => .bind (.list (Q := As fun n => n.IsParameter ∨ n.kind = .empty)
    (fun _ span => as_empty.mono .inr) ?_) fun elements he => ?_
  · exact (listElement_yields hr).mono fun n hn => hn.mono .inl
  · refine .skip fun _ => yields_node fun span => ⟨.inr rfl, .mk (fun n hn => (he n hn).1) ?_⟩
    exact fun n hn => (he n hn).2

lemma pattern_yields : Yields (pattern readers) (As IsPattern) := by
  unfold pattern
  exact .skip fun _ => .either (objectPattern_yields hr) (arrayPattern_yields hr)

lemma bindingTarget_yields : Yields (bindingTarget readers) (As IsTarget) := by
  unfold bindingTarget
  refine .skip fun _ => .either ((pattern_yields hr).mono fun n hn => hn.mono .inr) ?_
  exact .skip fun t => yields_pure nameOf_bare.isTarget

lemma bindingElement_yields : Yields (bindingElement readers) (As IsElement) := by
  unfold bindingElement
  refine .skip fun start => .bind (bindingTarget_yields hr) fun target ht => .skip fun _ => ?_
  refine .either (.bind (hr .assignment) fun fallback hf => yields_node fun span => ?_) ?_
  · exact ⟨.inr rfl, .mk ⟨ht.1, hf.1, trivial⟩ (by simp [ht.2, hf.2])⟩
  · exact yields_pure ht.isElement

end Grammar

end ModuleLint
