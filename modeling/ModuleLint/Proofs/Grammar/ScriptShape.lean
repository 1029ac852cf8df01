import ModuleLint.Grammar.Script
import ModuleLint.Proofs.Grammar.StatementShape
import ModuleLint.Proofs.Syntax.Arrangement

/-!
The shape of scripts.

The recursion of the grammar closes over the lemmas of its readers: at each depth the nonterminals
yield well-formed nodes of their classes. So every script that is read is arranged throughout.
-/

namespace ModuleLint.Grammar

open Node Reader

lemma production_yields {readers : Readers} (hr : YieldShapes readers) :
    YieldShapes (production readers) := by
  intro nt
  cases nt with
  | primary => exact primary_yields hr
  | newExpression => exact newExpression_yields hr
  | unary => exact unary_yields hr
  | binary level => exact binary_yields hr level
  | assignment => exact assignment_yields hr
  | expression => exact expression_yields hr
  | bindingTarget => exact bindingTarget_yields hr
  | bindingElement => exact bindingElement_yields hr
  | statement => exact statement_yields hr

lemma read_yields (depth : Nat) : YieldShapes (read depth) := by
  induction depth with
  | zero => exact fun _ => yields_stuck
  | succ depth ih => exact production_yields ih

lemma scriptReader_yields (depth : Nat) (name : Bytes) :
    Yields (scriptReader depth name) (As (·.kind = .script)) := by
  unfold scriptReader
  refine .skip fun start => .bind (.statements [] (read_yields depth .statement)) fun body hb => ?_
  refine .skip fun final => yields_pure ⟨rfl, .mk (fun n hn => (hb n hn).1) fun n hn => (hb n hn).2⟩

lemma script_as {name : Bytes} {tokens : List Token} {n : Node} (h : script name tokens = .ok n) :
    n.As (·.kind = .script) := by
  unfold script at h
  split at h
  case h_1 => cases h
  case h_2 first rest =>
    split at h
    case h_1 m s hm =>
      split at h
      · cases h
        exact scriptReader_yields _ name _ _ _ hm
      · cases h
    all_goals cases h

/-- **Every script has the documented shape**: each of its nodes has the children of its kind, and
what a checker takes without a look, the first child of a call or an assignment, is there. -/
theorem script_arranged {name : Bytes} {tokens : List Token} {n : Node}
    (h : script name tokens = .ok n) {path : List Nat} {spot : Spot}
    (hs : (Spot.root n).at? path = some spot) :
    spot.node.Arranged spot.parent? ∧
      (spot.node.kind = .call ∨ spot.node.kind = .assign → spot.node.first?.isSome) := by
  have arranged := (script_as h).arranged_at hs
  refine ⟨arranged, fun hk => ?_⟩
  have one : 0 < spot.node.children.length := by
    have least := arranged.atLeast
    rcases hk with hk | hk <;> rw [hk] at least <;> simp only [NodeKind.childCount] at least
    all_goals omega
  simpa [first?] using one

/-- The call in `f();`, with its parent. -/
theorem script_arranged_call :
    let tokens : List Token :=
      [TokenKind.identifier, .lparen, .rparen, .semi, .eof].map (⟨·, Span.none, [], [], false⟩)
    ∃ n spot, script [] tokens = .ok n ∧ (Spot.root n).at? [0, 0] = some spot ∧
      spot.node.kind = .call ∧ spot.node.Arranged spot.parent? ∧ spot.node.first?.isSome := by
  intro tokens
  refine ⟨_, _, rfl, rfl, rfl, ?_⟩
  have h := @script_arranged [] tokens _ rfl [0, 0] _ rfl
  exact ⟨h.1, h.2 (.inl rfl)⟩

end ModuleLint.Grammar
