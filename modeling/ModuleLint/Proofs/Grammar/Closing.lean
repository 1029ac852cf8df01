import Mathlib.Tactic.Common
import ModuleLint.Proofs.Grammar.Ahead

/-!
A parenthesis in the place of the end.

Tokens may go on with a closing parenthesis where they end. A reader that stands at a name with two
tokens behind it, or at another token with one, sees the same in both cases: it looks at the next
token behind a name only, and the search for an arrow finds none behind the parenthesis.
-/

namespace ModuleLint

open Grammar

/-! ### Tokens -/

/-- The second list has a closing parenthesis in front of its end, where the first one ends. -/
inductive ClosedBy : List Token → List Token → Prop
  | atEnd {e close stop : Token} (ends : e.kind = .eof) (closes : close.kind = .rparen)
      (stops : stop.kind = .eof) : ClosedBy [e] [close, stop]
  | cons {t : Token} {l l' : List Token} (inside : t.kind ≠ .eof) (behind : ClosedBy l l') :
      ClosedBy (t :: l) (t :: l')

/-- What a reader looks at at the first token is not the end: there is one token behind it, and two
if it is a name. -/
def Covered : List Token → Prop
  | t :: _ :: rest => t.kind = .identifier → rest ≠ []
  | _ => False

section Tokens

variable {t e close stop : Token} {l l' m : List Token}

lemma ClosedBy.endsOnce (h : ClosedBy l l') : EndsOnce l := by
  induction h with
  | atEnd ends => exact ends
  | @cons t l _ inside _ ih =>
    cases l with
    | nil => cases ih
    | cons => exact ⟨inside, ih⟩

lemma closedBy_concat (noEnd : ∀ t ∈ l, t.kind ≠ .eof) (ends : e.kind = .eof)
    (closes : close.kind = .rparen) (stops : stop.kind = .eof) :
    ClosedBy (l ++ [e]) (l ++ [close, stop]) := by
  induction l with
  | nil => exact .atEnd ends closes stops
  | cons t l ih =>
    obtain ⟨inside, noEnd⟩ := List.forall_mem_cons.mp noEnd
    exact .cons inside (ih noEnd)

lemma ClosedBy.exists_cons (h : ClosedBy l l') :
    ∃ x rest x' rest', l = x :: rest ∧ l' = x' :: rest' := by
  cases h <;> exact ⟨_, _, _, _, rfl, rfl⟩

lemma ClosedBy.length (h : ClosedBy l l') : l'.length = l.length + 1 := by
  induction h with
  | atEnd => rfl
  | cons _ _ ih => rw [List.length_cons, List.length_cons, ih]

lemma ClosedBy.head_arrow (h : ClosedBy l l') :
    l'.head?.any (·.kind == .arrow) = l.head?.any (·.kind == .arrow) := by
  cases h with
  | atEnd ends closes => simp [ends, closes]
  | cons => rfl

lemma ClosedBy.closesBeforeArrow (h : ClosedBy l l') (depth : Nat) :
    closesBeforeArrow depth l' = closesBeforeArrow depth l := by
  induction h generalizing depth with
  | atEnd ends closes stops =>
    simp [Grammar.closesBeforeArrow, ends, closes, stops]
  | cons _ behind ih =>
    rw [Grammar.closesBeforeArrow, Grammar.closesBeforeArrow, behind.head_arrow]
    simp only [ih]

/-- No arrow function starts because of what stands in the place of the end. -/
lemma ClosedBy.startsArrow (h : ClosedBy l l') : startsArrow l' = startsArrow l := by
  have same := h.closesBeforeArrow 0
  cases h with
  | atEnd ends closes =>
    rw [Grammar.startsArrow, Grammar.startsArrow, ends, closes]
    rfl
  | cons _ behind => rw [Grammar.startsArrow, Grammar.startsArrow, behind.head_arrow, same]

lemma Covered.suffix (h : Covered l) (suffix : l <:+ m) : Covered m := by
  obtain ⟨front, rfl⟩ := suffix
  induction front with
  | nil => exact h
  | cons t front ih =>
    rw [List.cons_append]
    generalize front ++ l = m at ih
    cases m with
    | nil => cases ih
    | cons u m =>
      cases m with
      | nil => cases ih
      | cons => exact fun _ => List.cons_ne_nil _ _

/-- A token that is no name is covered unless it is the end. -/
lemma EndsOnce.covered (h : EndsOnce (t :: l)) (inside : t.kind ≠ .eof)
    (other : t.kind ≠ .identifier) : Covered (t :: l) := by
  cases l with
  | nil => exact absurd h inside
  | cons => exact fun word => absurd word other

end Tokens

/-! ### States -/

/-- The second state is the first one, with a closing parenthesis where its tokens end. -/
structure ReaderState.Closed (s s' : ReaderState) : Prop where
  tokens : ClosedBy s.tokens s'.tokens
  previous : s'.previous = s.previous
  allowsIn : s'.allowsIn = s.allowsIn
  faults : s'.faults = s.faults

/-- A reader that stands in the one state or the other sees the same, except that a parenthesis may
be next in the place of the end. -/
structure ReaderState.Alike (s s' : ReaderState) : Prop where
  current : s'.current = s.current
  previous : s'.previous = s.previous
  allowsIn : s'.allowsIn = s.allowsIn
  next : Reader.nextToken s' = Reader.nextToken s ∨
    (Reader.nextToken s).kind = .eof ∧ (Reader.nextToken s').kind = .rparen
  arrow : startsArrow s'.tokens = startsArrow s.tokens
  arrowBehind : startsArrow s'.ahead = startsArrow s.ahead

section States

open Reader

variable {s s' : ReaderState}

namespace ReaderState.Closed

lemma ahead_le (h : s.Closed s') : s.ahead.length ≤ s'.ahead.length := by
  have length := h.tokens.length
  simp only [ReaderState.tokens, List.length_cons] at length
  omega

lemma behind (h : s.Closed s') (inside : s.current.kind ≠ .eof) :
    s'.current = s.current ∧ ClosedBy s.ahead s'.ahead := by
  obtain ⟨previous, current, ahead, faults, allowsIn, omitted⟩ := s
  obtain ⟨previous', current', ahead', faults', allowsIn', omitted'⟩ := s'
  cases h.tokens with
  | atEnd ends => exact absurd ends inside
  | cons _ behind => exact ⟨rfl, behind⟩

lemma atEnd (h : s.Closed s') (ends : s.current.kind = .eof) : s'.current.kind = .rparen := by
  obtain ⟨previous, current, ahead, faults, allowsIn, omitted⟩ := s
  obtain ⟨previous', current', ahead', faults', allowsIn', omitted'⟩ := s'
  cases h.tokens with
  | atEnd _ closes => exact closes
  | cons inside => exact absurd ends inside

lemma alike (h : s.Closed s') (inside : s.current.kind ≠ .eof) : s.Alike s' := by
  obtain ⟨current, behind⟩ := h.behind inside
  refine ⟨current, h.previous, h.allowsIn, ?_, h.tokens.startsArrow, behind.startsArrow⟩
  unfold nextToken
  generalize s.ahead = ahead at behind ⊢
  generalize s'.ahead = ahead' at behind ⊢
  cases behind with
  | atEnd ends closes => exact .inr ⟨ends, closes⟩
  | cons => exact .inl rfl

lemma step (h : s.Closed s') (inside : s.current.kind ≠ .eof) :
    (Reader.step s).Closed (Reader.step s') := by
  obtain ⟨current, behind⟩ := h.behind inside
  have inside' : s'.current.kind ≠ .eof := by
    rw [current]
    exact inside
  obtain ⟨x, rest, x', rest', ahead, ahead'⟩ := behind.exists_cons
  rw [Edit.step_of_ahead inside ahead, Edit.step_of_ahead inside' ahead']
  rw [ahead, ahead'] at behind
  exact ⟨behind, current, h.allowsIn, h.faults⟩

/-- What is covered is not the end. -/
lemma inside (h : s.Closed s') (covered : Covered s.tokens) : s.current.kind ≠ .eof := by
  intro ends
  have only : s.ahead = [] := h.tokens.endsOnce.eq_nil ends
  rw [ReaderState.tokens, only] at covered
  cases covered

/-- Behind a covered name the same token is next. -/
lemma next (h : s.Closed s') (covered : Covered s.tokens) (word : s.current.kind = .identifier) :
    nextToken s' = nextToken s := by
  obtain ⟨-, behind⟩ := h.behind (h.inside covered)
  rw [ReaderState.tokens] at covered
  unfold nextToken
  generalize s.ahead = ahead at behind covered ⊢
  generalize s'.ahead = ahead' at behind ⊢
  cases behind with
  | atEnd => exact absurd rfl (covered word)
  | cons => rfl

/-- A covered word is told from a modifier in the same way. -/
lemma word (h : s.Closed s') (covered : Covered s.tokens) (word : Bytes)
    (applies : Token → Bool) :
    (isWord word s'.current && applies (nextToken s')) =
      (isWord word s.current && applies (nextToken s)) := by
  rw [(h.behind (h.inside covered)).1]
  by_cases name : s.current.kind = .identifier
  · rw [h.next covered name]
  · rw [isWord, beq_false_of_ne name, Bool.false_and, Bool.false_and, Bool.false_and]

end ReaderState.Closed

namespace ReaderState.Alike

lemma nextKind {kind : TokenKind} (h : s.Alike s') (notEnd : kind ≠ .eof)
    (notParenthesis : kind ≠ .rparen) :
    ((nextToken s').kind == kind) = ((nextToken s).kind == kind) := by
  obtain next | ⟨ends, closes⟩ := h.next
  · rw [next]
  · rw [ends, closes, beq_false_of_ne notEnd.symm, beq_false_of_ne notParenthesis.symm]

lemma isAsyncFunction (h : s.Alike s') : isAsyncFunction s' = isAsyncFunction s := by
  unfold Grammar.isAsyncFunction
  rw [h.current, h.nextKind (by decide) (by decide)]
  obtain next | ⟨ends, -⟩ := h.next
  · rw [next]
  · rw [ends, show (TokenKind.eof == .kwFunction) = false from rfl, Bool.and_false,
      Bool.false_and, Bool.false_and]

lemma isAsyncArrow (h : s.Alike s') : isAsyncArrow s' = isAsyncArrow s := by
  unfold Grammar.isAsyncArrow
  rw [h.current, h.arrowBehind]
  obtain next | ⟨ends, -⟩ := h.next
  · rw [next]
  · have none : startsArrow s.ahead = false := by
      unfold nextToken at ends
      cases ahead : s.ahead with
      | nil => rfl
      | cons t rest =>
        rw [ahead] at ends
        change t.kind = .eof at ends
        rw [startsArrow, ends]
        rfl
    rw [none, Bool.and_false, Bool.and_false]

end ReaderState.Alike

end States

end ModuleLint
