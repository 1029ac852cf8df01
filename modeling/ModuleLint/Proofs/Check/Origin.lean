import ModuleLint.Proofs.Check.Reports
import ModuleLint.Proofs.Grammar.ScriptRespan
import ModuleLint.Proofs.Token.Scan

/-!
Reports stand in the file of their script.

Every span in a script that is read from a source lies in the source's file, since it is made of
those of its tokens. Each rule reports the span of a node at its place, above it or below it.
-/

namespace ModuleLint

/-! ### Scripts -/

/-- The spans of a script lie in the file of its source. -/
lemma Source.script_intoFile {s : Source} {n : Node} (h : s.script = .ok n) :
    n.respan (.intoFile s.name) = n := by
  have parsed := s.script_eq_ok h
  have again := Grammar.script_respan (.intoFile s.name) s.name s.tokens.tokens
  rw [s.tokens_intoFile, parsed] at again
  exact (Except.ok.inj again).symm

/-! ### Places -/

namespace Node

variable {φ : Respan} {n : Node}

lemma span_of_fixed (h : n.respan φ = n) : φ.span n.span = n.span := by
  rw [← span_respan, h]

lemma children_fixed (h : n.respan φ = n) : ∀ c ∈ n.children, c.respan φ = c := by
  have same : n.children.map (respan φ) = n.children.map id := by
    rw [← children_respan, h, List.map_id]
  exact List.map_inj_left.mp same

end Node

namespace Spot

variable {φ : Respan} {t : Spot} {before : List Spot} {r : Report}

/-- A change of spans that leaves a place and all that is above it as they are. -/
def Fixed (φ : Respan) (t : Spot) : Prop := ∀ m ∈ t.node :: t.ancestors, m.respan φ = m

lemma Fixed.child {s : Spot} {i : Nat} (h : s.Fixed φ) (ht : s.child? i = some t) : t.Fixed φ := by
  obtain ⟨c, hc, rfl⟩ := Option.map_eq_some_iff.mp ht
  have node : s.node.respan φ = s.node := h s.node List.mem_cons_self
  refine List.forall_mem_cons.mpr ⟨?_, h⟩
  exact Node.children_fixed node c (List.mem_of_getElem? hc)

lemma fixed_of_postorder {n : Node} (h : n.respan φ = n) (ht : t ∈ n.postorder []) :
    t.Fixed φ := by
  obtain ⟨path, hp⟩ := Node.mem_postorder.mp ht
  have top : Fixed φ ⟨n, []⟩ := List.forall_mem_singleton.mpr h
  exact Spot.at?_keeps (fun s i t hs => hs.child) top hp

/-! ### Rules -/

lemma Fixed.node (h : t.Fixed φ) : φ.span t.node.span = t.node.span :=
  Node.span_of_fixed (h t.node List.mem_cons_self)

lemma declarationOf_mem {kinds : List NodeKind} {above : List Node} {declaration : Node}
    (h : declarationOf kinds above = some declaration) : declaration ∈ above := by
  unfold declarationOf at h
  split at h
  · split at h
    · cases h
      simp
    · cases h
  · cases h

lemma consumer_mem {above : List Node} {declaration : Node}
    (h : consumer above = some declaration) : declaration ∈ above := by
  unfold consumer at h
  split at h
  · cases h
  · split at h
    · exact List.mem_cons_of_mem _ (declarationOf_mem h)
    · exact declarationOf_mem h

lemma require_span (h : t.Fixed φ) (hr : r ∈ t.require) : φ.span r.span = r.span := by
  unfold require at hr
  split at hr
  · cases hr
  · split at hr
    case h_1 declaration hd =>
      have above : declaration ∈ t.ancestors := consumer_mem hd
      have fixed := Node.span_of_fixed (h declaration (List.mem_cons_of_mem _ above))
      split at hr
      · rw [List.mem_singleton.mp hr]
        exact fixed
      · cases hr
    case h_2 =>
      rw [List.mem_singleton.mp hr]
      exact h.node

lemma shorthands_span (h : t.Fixed φ) (hr : r ∈ t.shorthands) : φ.span r.span = r.span := by
  unfold shorthands at hr
  split at hr
  case h_1 target value hk hc =>
    split at hr
    · obtain ⟨key, hkey, rfl⟩ := List.mem_map.mp hr
      have below := Node.children_fixed (h t.node List.mem_cons_self)
      have fixed : value.respan φ = value := below value (by simp [hc])
      exact Node.span_of_fixed (Node.children_fixed fixed key (List.mem_of_mem_filter hkey))
    · cases hr
  case h_2 => cases hr

/-- Whatever a rule reports at a place has a span from there. -/
lemma expected_span (h : t.Fixed φ) (hr : r ∈ t.expected before) : φ.span r.span = r.span := by
  have ofNode {p : Prop} [Decidable p] {kind : FindingKind}
      (hr : r ∈ if p then [Report.mk kind t.node.span] else []) : φ.span r.span = r.span := by
    split at hr
    · rw [List.mem_singleton.mp hr]
      exact h.node
    · cases hr
  unfold expected at hr
  simp only [List.mem_append] at hr
  rcases hr with (((((hr | hr) | hr) | hr) | hr) | hr) | hr
  · exact ofNode hr
  · exact ofNode hr
  · exact require_span h hr
  · exact shorthands_span h hr
  · exact ofNode hr
  · exact ofNode hr
  · exact ofNode hr

end Spot

lemma Node.expectedReports_span {φ : Respan} {n : Node} (h : n.respan φ = n) :
    ∀ r ∈ n.expectedReports, φ.span r.span = r.span := by
  intro r hr
  obtain ⟨⟨t, i⟩, ht, hr⟩ := List.mem_flatMap.mp hr
  exact Spot.expected_span (Spot.fixed_of_postorder h (List.fst_mem_of_mem_zipIdx ht)) hr

/-- **Reports on a script lie in the file of its source.** -/
theorem Source.reports_inFile {s : Source} {n : Node} (h : s.script = .ok n)
    (isModuleFile : Node → Bool) :
    ∀ r ∈ CheckState.reports ⟨none, CheckState.told isModuleFile n⟩, r.span.file = s.name := by
  have shape := Grammar.script_as (s.script_eq_ok h)
  intro r hr
  cases hm : isModuleFile n with
  | true =>
    rw [CheckState.reports_told shape hm] at hr
    have fixed := Node.expectedReports_span (s.script_intoFile h) r hr
    rw [← fixed]
    rfl
  | false =>
    have refused := CheckState.enters_refused shape.1 hm (.start []) .start
    unfold CheckState.told at hr
    rw [Visitor.walk_of_refuses refused] at hr
    cases hr

end ModuleLint
