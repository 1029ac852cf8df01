import ModuleLint.Proofs.Grammar.StatementTrace
import ModuleLint.Proofs.Syntax.Arrangement
import ModuleLint.Proofs.Token.Tiling

/-!
The spans of a script.

The nodes of a script lie in its tokens, each within its parent, and the tokens of a source are in
the order of their offsets. So every span runs forward and lies within that of the parent, but for
the block of a `switch` clause without statements: it runs from the token behind the colon back to
the colon.
-/

namespace ModuleLint

open Reader Node TokenList

/-! ### Scripts -/

namespace Grammar

variable {all : List Token}

lemma scriptReader_traces (depth : Nat) (name : Bytes) :
    Traces all 0 0 (fun j n => Lies all 0 (j + 1) n) (scriptReader depth name) := by
  unfold scriptReader
  refine .here fun start hs => ?_
  refine (Traces.statements (Nat.le_refl 0) fun j _ => read_traces all 0 depth .statement j).bind ?_
  refine fun body j _ lie => .here fun final hf => traces_pure ?_
  have stops : StopsAt all (j + 1) (start.merge final) := hf.stopsAt
  refine .mk (Nat.le_refl 0) (Nat.succ_pos j) (Nat.le_refl _) hs.startsAt stops fun c hc _ => ?_
  exact (lie c hc).mono (Nat.le_refl 0) (Nat.le_succ j)

lemma before_start (first : Token) (rest : List Token) :
    (start first rest).Before (first :: rest) 0 :=
  ⟨rfl, fun positive => absurd positive (Nat.lt_irrefl 0)⟩

/-- A script lies in its tokens. -/
lemma script_lies {name : Bytes} {n : Node} (hs : EndsOnce all) (h : script name all = .ok n) :
    Lies all 0 all.length n := by
  unfold script at h
  split at h
  case h_1 => cases h
  case h_2 first rest =>
    have trace := scriptReader_traces (rest.length + 2) name hs (Nat.le_refl 0) _
      (before_start first rest)
    split at h
    case h_1 m s hm =>
      rw [hm] at trace
      obtain ⟨j, -, before, -, lies⟩ := trace
      split at h
      · cases h
        exact lies.mono (Nat.le_refl 0) before.lt
      · cases h
    all_goals cases h

end Grammar

/-! ### Offsets -/

/-- The span lies within another, as told by their offsets. -/
def Span.Within (a b : Span) : Prop :=
  b.start.offset ≤ a.start.offset ∧ a.stop.offset ≤ b.stop.offset

/-- Tokens in the order of their offsets. -/
structure Ascending (all : List Token) : Prop where
  each : ∀ t ∈ all, t.startsAt ≤ t.stopsAt
  next : all.Pairwise fun a b => a.stopsAt ≤ b.startsAt

namespace Ascending

variable {all : List Token} {i j : Nat} {a b : Token} {sa sb : Span}

lemma stop_le_start (h : Ascending all) (hij : i < j) (ha : all[i]? = some a)
    (hb : all[j]? = some b) : a.stopsAt ≤ b.startsAt := by
  obtain ⟨hi, rfl⟩ := List.getElem?_eq_some_iff.mp ha
  obtain ⟨hj, rfl⟩ := List.getElem?_eq_some_iff.mp hb
  exact List.pairwise_iff_getElem.mp h.next i j hi hj hij

lemma start_le_stop (h : Ascending all) (ha : all[i]? = some a) : a.startsAt ≤ a.stopsAt :=
  h.each a (List.mem_of_getElem? ha)

lemma start_le_start (h : Ascending all) (hij : i ≤ j) (ha : StartsAt all i sa)
    (hb : StartsAt all j sb) : sa.start.offset ≤ sb.start.offset := by
  obtain ⟨t, ht, hsa⟩ := ha
  obtain ⟨u, hu, hsb⟩ := hb
  rw [hsa, hsb, UInt32.le_iff_toNat_le]
  rcases Nat.eq_or_lt_of_le hij with rfl | hij
  · rw [Option.some.inj (ht.symm.trans hu)]
  · have first := h.start_le_stop ht
    have second := h.stop_le_start hij ht hu
    exact Nat.le_trans first second

lemma stop_le_stop (h : Ascending all) (hi : 0 < i) (hij : i ≤ j) (ha : StopsAt all i sa)
    (hb : StopsAt all j sb) : sa.stop.offset ≤ sb.stop.offset := by
  obtain ⟨t, ht, hsa⟩ := ha
  obtain ⟨u, hu, hsb⟩ := hb
  rw [hsa, hsb, UInt32.le_iff_toNat_le]
  rcases Nat.eq_or_lt_of_le hij with rfl | hij
  · rw [Option.some.inj (ht.symm.trans hu)]
  · have first := h.stop_le_start (by omega) ht hu
    have second := h.start_le_stop hu
    exact Nat.le_trans first second

lemma start_le_stop_of_lt (h : Ascending all) (hij : i < j) (ha : StartsAt all i sa)
    (hb : StopsAt all j sb) : sa.start.offset ≤ sb.stop.offset := by
  obtain ⟨u, hu, hsb⟩ := hb
  have first := h.start_le_start (by omega : i ≤ j - 1) ha (spanOf_token hu).startsAt
  have second := h.start_le_stop hu
  rw [UInt32.le_iff_toNat_le] at first ⊢
  rw [hsb]
  exact Nat.le_trans first second

end Ascending

namespace Node

variable {all : List Token} {lo hi : Nat} {n : Node}

lemma Lies.forward (h : Lies all lo hi n) (order : Ascending all) :
    n.span.start.offset ≤ n.span.stop.offset := by
  cases h with
  | mk first some last start stop children => exact order.start_le_stop_of_lt some start stop

lemma Lies.child (h : Lies all lo hi n) {c : Node} (hc : c ∈ n.children)
    (body : ¬ n.IsEmptyBody c) : Lies all lo hi c := by
  cases h with
  | mk first some last start stop children => exact (children c hc body).mono first last

lemma Lies.child_within (h : Lies all lo hi n) (order : Ascending all) {c : Node}
    (hc : c ∈ n.children) (body : ¬ n.IsEmptyBody c) : c.span.Within n.span := by
  cases h with
  | mk first some last start stop children =>
    cases children c hc body with
    | mk first' some' last' start' stop' children' =>
      exact ⟨order.start_le_start first' start start',
        order.stop_le_stop (by omega) last' stop' stop⟩

/-- In a tree that lies in ordered tokens, every span runs forward and lies within that of the
parent, but for the bodies without statements. -/
lemma Lies.spans_at (h : Lies all lo hi n) (order : Ascending all) {path : List Nat} {spot : Spot}
    (hs : (Spot.root n).at? path = some spot)
    (proper : ∀ p ∈ spot.parent?, ¬ p.IsEmptyBody spot.node) :
    spot.node.span.start.offset ≤ spot.node.span.stop.offset ∧
      ∀ p ∈ spot.parent?, spot.node.span.Within p.span := by
  have keeps : ∀ s i t,
      ((∀ p ∈ Spot.parent? s, ¬ p.IsEmptyBody s.node) →
        Lies all lo hi s.node ∧ ∀ p ∈ Spot.parent? s, s.node.span.Within p.span) →
      Spot.child? s i = some t →
      (∀ p ∈ t.parent?, ¬ p.IsEmptyBody t.node) →
        Lies all lo hi t.node ∧ ∀ p ∈ t.parent?, t.node.span.Within p.span := by
    intro s i t above step proper
    obtain ⟨hc, hp⟩ := Spot.child?_eq_some step
    rw [hp] at proper ⊢
    have body := proper s.node rfl
    -- a body without statements has no children, so the parent is none
    have parent := above fun p _ ⟨_, _, empty⟩ => by
      rw [empty] at hc
      cases hc
    refine ⟨parent.1.child hc body, fun p hp => ?_⟩
    cases hp
    exact parent.1.child_within order hc body
  have top : (∀ p ∈ (Spot.root n).parent?, ¬ p.IsEmptyBody (Spot.root n).node) →
      Lies all lo hi n ∧ ∀ p ∈ (Spot.root n).parent?, n.span.Within p.span :=
    fun _ => ⟨h, fun p hp => absurd hp (Option.not_mem_none p)⟩
  obtain ⟨lies, within⟩ := Spot.at?_keeps keeps top hs proper
  exact ⟨lies.forward order, within⟩

end Node

/-! ### Sources -/

namespace Source

lemma tokens_ascending {s : Source} (small : s.length < 2 ^ 32) : Ascending s.tokens.tokens := by
  have tiles := tokens_tiles small
  refine ⟨fun t ht => ?_, tiles.ordered.2⟩
  obtain ⟨before, after, split⟩ := List.append_of_mem ht
  obtain ⟨-, front, gap, bytes, rest, placed⟩ := tiles.placed split
  rw [placed.stands.start, placed.stands.stop]
  exact Nat.le_add_right _ _

/-- The place in the script of a source that a path leads to. -/
def spotAt? (s : Source) (path : List Nat) : Option Spot :=
  s.script.toOption.bind fun n => (Spot.root n).at? path

lemma exists_of_spotAt? {s : Source} {path : List Nat} {spot : Spot}
    (h : s.spotAt? path = some spot) :
    ∃ n, s.script = .ok n ∧ (Spot.root n).at? path = some spot := by
  obtain ⟨n, hn, hs⟩ := Option.bind_eq_some_iff.mp h
  refine ⟨n, ?_, hs⟩
  cases hr : s.script with
  | ok m =>
    rw [hr] at hn
    exact congrArg _ (Option.some.inj hn)
  | error e =>
    rw [hr] at hn
    cases hn

/-- **Spans are well formed, but for bodies without statements.** In the tree of a source of fewer
than `2 ^ 32` bytes, the span of every node other than the block of a `switch` clause without
statements does not end before it starts, and lies within the span of the parent. -/
theorem script_spans {s : Source} (small : s.length < 2 ^ 32) {n : Node} (h : s.script = .ok n)
    {path : List Nat} {spot : Spot} (hs : (Spot.root n).at? path = some spot)
    (proper : ∀ p ∈ spot.parent?, ¬ p.IsEmptyBody spot.node) :
    spot.node.span.start.offset ≤ spot.node.span.stop.offset ∧
      ∀ p ∈ spot.parent?, spot.node.span.Within p.span := by
  have ends : EndsOnce s.tokens.tokens := scanFrom_endsOnce _ _ _ _
  have lies := Grammar.script_lies ends (script_eq_ok h)
  exact lies.spans_at (tokens_ascending small) hs proper

/-- The clause in `switch (x) { case 1: }` lies within the `switch`. -/
theorem script_spans_clause :
    let s : Source := ⟨[], ascii "switch (x) { case 1: }"⟩
    s.length < 2 ^ 32 ∧ ∃ n spot p, s.script = .ok n ∧ (Spot.root n).at? [0, 1] = some spot ∧
      spot.parent? = some p ∧ ¬ p.IsEmptyBody spot.node ∧
      spot.node.span.start.offset ≤ spot.node.span.stop.offset ∧
      spot.node.span.Within p.span := by
  intro s
  have small : s.length < 2 ^ 32 := by decide
  have kind : (s.spotAt? [0, 1]).map (fun spot => spot.parent?.map (·.kind)) =
      some (some .switchStmt) := by decide +kernel
  obtain ⟨spot, found, hk⟩ := Option.map_eq_some_iff.mp kind
  obtain ⟨n, reads, hs⟩ := exists_of_spotAt? found
  obtain ⟨p, hp, hk⟩ := Option.map_eq_some_iff.mp hk
  have proper : ¬ p.IsEmptyBody spot.node := by
    rintro ⟨clause | clause, -⟩ <;> rw [hk] at clause <;> cases clause
  have each : ∀ p ∈ spot.parent?, ¬ p.IsEmptyBody spot.node := by
    intro q hq
    rw [hp] at hq
    exact Option.some.inj hq ▸ proper
  obtain ⟨forward, within⟩ := script_spans small reads hs each
  exact ⟨small, n, spot, p, reads, hs, hp, proper, forward, within p hp⟩

/-- The body of that clause starts at the closing brace, behind the end of the clause, and ends
before it starts. -/
theorem script_spans_emptyBody :
    let s : Source := ⟨[], ascii "switch (x) { case 1: }"⟩
    s.length < 2 ^ 32 ∧ ∃ n spot p, s.script = .ok n ∧ (Spot.root n).at? [0, 1, 1] = some spot ∧
      spot.parent? = some p ∧ spot.node.span.stop.offset < spot.node.span.start.offset ∧
      p.span.stop.offset < spot.node.span.start.offset := by
  intro s
  have small : s.length < 2 ^ 32 := by decide
  have spans : (s.spotAt? [0, 1, 1]).map (fun spot =>
      (spot.node.span.start.offset, spot.node.span.stop.offset,
        spot.parent?.map (·.span.stop.offset))) = some (21, 20, some 20) := by decide +kernel
  obtain ⟨spot, found, spans⟩ := Option.map_eq_some_iff.mp spans
  obtain ⟨n, reads, hs⟩ := exists_of_spotAt? found
  obtain ⟨start, spans⟩ := Prod.mk.inj spans
  obtain ⟨stop, above⟩ := Prod.mk.inj spans
  obtain ⟨p, hp, above⟩ := Option.map_eq_some_iff.mp above
  refine ⟨small, n, spot, p, reads, hs, hp, ?_, ?_⟩
  · rw [start, stop]
    decide
  · rw [start, above]
    decide

end Source

end ModuleLint
