import Mathlib.Tactic.Common
import ModuleLint.Grammar.Reader

/-!
What readers yield.

`Yields p Q` says that `p` succeeds with values that satisfy `Q` alone, from whatever state and
whatever it leaves behind. The rules follow the way readers are put together; a loop yields what
each of its turns does.
-/

namespace ModuleLint.Reader

/-- The items of a turn, be it the last one or not. -/
def Turn.items : Turn → List Node
  | .more items => items
  | .last items => items

/-- The reader succeeds with values that satisfy `Q` alone. -/
def Yields {α : Type} (p : Reader α) (Q : α → Prop) : Prop := ∀ s a t, p s = .ok a t → Q a

section Rules

variable {α β : Type} {p q : Reader α} {f : α → Reader β} {P Q : α → Prop} {R : β → Prop}

lemma Yields.mono (h : Yields p P) (hPQ : ∀ a, P a → Q a) : Yields p Q :=
  fun s a t hp => hPQ a (h s a t hp)

lemma Yields.and (hP : Yields p P) (hQ : Yields p Q) : Yields p fun a => P a ∧ Q a :=
  fun s a t hp => ⟨hP s a t hp, hQ s a t hp⟩

lemma yields_pure {a : α} (h : Q a) : Yields (pure a) Q := by
  intro s b t hb
  cases hb
  exact h

lemma yields_look {g : ReaderState → α} (h : ∀ s, Q (g s)) : Yields (look g) Q := by
  intro s b t hb
  cases hb
  exact h s

lemma yields_stuck : Yields (fun _ => .stuck) Q := by
  intro s a t h
  cases h

lemma yields_fail {error : SyntaxError} {span : Span} : Yields (fail error span) Q := by
  intro s a t h
  cases h

lemma yields_failHere {error : TokenKind → SyntaxError} : Yields (failHere error) Q := by
  intro s a t h
  cases h

lemma Yields.bind (hp : Yields p P) (hf : ∀ a, P a → Yields (f a) R) : Yields (p >>= f) R := by
  intro s b t h
  change andThen p f s = .ok b t at h
  unfold andThen at h
  split at h
  case h_1 a u hu => exact hf a (hp s a u hu) u b t h
  all_goals cases h

/-- The value of the first part does not matter. -/
lemma Yields.skip (hf : ∀ a, Yields (f a) R) : Yields (p >>= f) R :=
  Yields.bind (P := fun _ => True) (fun _ _ _ _ => trivial) fun a _ => hf a

lemma Yields.ite {c : Prop} [Decidable c] (hp : c → Yields p Q) (hq : ¬ c → Yields q Q) :
    Yields (if c then p else q) Q := by
  split
  · exact hp ‹c›
  · exact hq ‹¬ c›

/-- A value that is there or not. -/
lemma Yields.either (hp : Yields p Q) (hq : Yields q Q) {c : Prop} [Decidable c] :
    Yields (if c then p else q) Q :=
  .ite (fun _ => hp) fun _ => hq

lemma Yields.withIn (allows : Bool) (h : Yields p Q) : Yields (withIn allows p) Q := by
  intro s a t ht
  unfold Reader.withIn at ht
  split at ht
  case h_1 b u hu =>
    cases ht
    exact h _ a u hu
  all_goals cases ht

lemma Yields.allowingIn (h : Yields p Q) : Yields (allowingIn p) Q :=
  .skip fun _ => .skip fun _ => .bind h fun _ ha => .skip fun _ => yields_pure ha

end Rules

/-! ### Nodes -/

/-- Nodes are told apart by kind and children alone: what else is in a node may change. -/
lemma yields_extended {n : Node} {Q : Node → Prop} (h : ∀ span, Q { n with span }) :
    Yields (extended n) Q :=
  yields_look fun s => h (n.span.merge s.previous.span)

lemma yields_node {kind : NodeKind} {start : Span} {children : List Node} {Q : Node → Prop}
    (h : ∀ span, Q (Node.of kind span children)) : Yields (node kind start children) Q :=
  yields_extended h

/-! ### Loops -/

section Loops

variable {Q : Node → Prop}

lemma Yields.repeatedly {turn : Reader Turn} (h : Yields turn fun u => ∀ n ∈ u.items, Q n) :
    Yields (repeatedly turn) fun l => ∀ n ∈ l, Q n := by
  have atMost : ∀ bound, Yields (repeatedAtMost turn bound) fun l => ∀ n ∈ l, Q n := by
    intro bound
    induction bound with
    | zero => exact yields_stuck
    | succ bound ih =>
      refine .bind h fun u hu => ?_
      cases u with
      | last items => exact yields_pure hu
      | more items =>
        refine .bind ih fun more hmore => yields_pure fun n hn => ?_
        rcases List.mem_append.mp hn with hn | hn
        · exact hu n hn
        · exact hmore n hn
  exact fun s => atMost _ s

/-- A loop whose turns have items has items. -/
lemma Yields.repeatedly_ne_nil {turn : Reader Turn} (h : Yields turn fun u => u.items ≠ []) :
    Yields (Reader.repeatedly turn) fun l => l ≠ [] := by
  intro s
  refine Yields.bind h (fun u hu => ?_) s
  cases u with
  | last items => exact yields_pure hu
  | more items => exact .skip fun more => yields_pure (List.append_ne_nil_of_left_ne_nil hu more)

lemma Yields.growing {turn : Node → Reader (Option Node)} {n : Node} (hn : Q n)
    (h : ∀ m, Q m → Yields (turn m) fun r => ∀ m' ∈ r, Q m') : Yields (growing turn n) Q := by
  have atMost : ∀ bound m, Q m → Yields (grownAtMost turn bound m) Q := by
    intro bound
    induction bound with
    | zero => exact fun _ _ => yields_stuck
    | succ bound ih =>
      intro m hm
      refine .bind (h m hm) fun r hr => ?_
      cases r with
      | none => exact yields_pure hm
      | some m' => exact ih m' (hr m' rfl)
  exact fun s => atMost _ n hn s

lemma Yields.list {close : TokenKind} {holes : Bool} {item : Reader Node}
    (hole : holes → ∀ span, Q (Node.of .empty span [])) (h : Yields item Q) :
    Yields (list close holes item) fun l => ∀ n ∈ l, Q n := by
  refine .repeatedly (.skip fun t => .either (yields_pure (by simp [Turn.items])) (.ite ?_ ?_))
  · intro hh
    exact .skip fun comma => yields_pure (by simpa [Turn.items] using hole hh.1 comma.span)
  · intro _
    refine .bind h fun n hn => .skip fun more => ?_
    exact .either (yields_pure (by simpa [Turn.items])) (yields_pure (by simpa [Turn.items]))

lemma Yields.recovering {p : Reader Node} (h : Yields p Q) :
    Yields (recovering p) fun l => ∀ n ∈ l, Q n := by
  intro s l t hl
  unfold Reader.recovering at hl
  split at hl
  case h_1 n u hu =>
    cases hl
    simpa using h s n t hu
  case h_2 => cases hl; simp
  case h_3 => cases hl

lemma Yields.statements {statement : Reader Node} (ends : List TokenKind) (h : Yields statement Q) :
    Yields (statements statement ends) fun l => ∀ n ∈ l, Q n :=
  .repeatedly (.skip fun _ => .either (yields_pure (by simp [Turn.items]))
    (.bind h.recovering fun _ hl => yields_pure hl))

end Loops

end ModuleLint.Reader
