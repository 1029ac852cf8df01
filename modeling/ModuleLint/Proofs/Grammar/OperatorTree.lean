import Mathlib.Tactic.Common
import ModuleLint.Grammar.Expression

/-!
Trees of binary operators.

A tree is grouped if each operator may stand where it does under the one above it. There is exactly
one grouped tree for operands with operators between them, and `insert` finds it from left to right:
it goes down the right edge as long as the new operator can be in a right operand.
-/

namespace ModuleLint.Grammar

/-! ### Precedences -/

/-- The binary operators, from those that bind loosest to those that bind tightest. -/
def operatorLevels : List (List TokenKind) :=
  [[.questionQuestion], [.orOr], [.andAnd], [.bitOr], [.bitXor], [.bitAnd],
    [.eq, .ne, .strictEq, .strictNe], [.lt, .gt, .le, .ge, .kwInstanceof, .kwIn],
    [.shl, .shr, .ushr], [.plus, .minus], [.star, .slash, .percent], [.starStar]]

/-- The level of an operator, from 1 on; zero for every other token. -/
def precedence (k : TokenKind) : Nat :=
  (operatorLevels.findIdx? (·.contains k)).elim 0 (· + 1)

def IsOperator (k : TokenKind) : Prop := ∃ level ∈ operatorLevels, k ∈ level

/-- An operator may be that of the left operand of another one if it binds as tightly. Operators
that group to the right take none of their own level there. -/
def FitsLeft (inner outer : TokenKind) : Prop :=
  if outer = .starStar then precedence outer < precedence inner
  else precedence outer ≤ precedence inner

/-- An operator may be that of the right operand of another one if it binds more tightly. Operators
that group to the right take those of their own level as well. -/
def FitsRight (outer inner : TokenKind) : Prop :=
  if outer = .starStar then precedence outer ≤ precedence inner
  else precedence outer < precedence inner

instance (inner outer : TokenKind) : Decidable (FitsLeft inner outer) :=
  inferInstanceAs (Decidable (if outer = .starStar then precedence outer < precedence inner
    else precedence outer ≤ precedence inner))

instance (outer inner : TokenKind) : Decidable (FitsRight outer inner) :=
  inferInstanceAs (Decidable (if outer = .starStar then precedence outer ≤ precedence inner
    else precedence outer < precedence inner))

lemma IsOperator.precedence_pos {k : TokenKind} (h : IsOperator k) : 0 < precedence k := by
  have all : ∀ level ∈ operatorLevels, ∀ k ∈ level, 0 < precedence k := by decide +kernel
  obtain ⟨level, hl, hk⟩ := h
  exact all level hl k hk

lemma level_eq (k : TokenKind) : level true k = precedence k := by
  cases k <;> decide +kernel

lemma precedence_le (k : TokenKind) : precedence k ≤ 12 := by
  cases k <;> decide +kernel

/-- Only `**` groups to the right, and nothing binds as tightly. -/
lemma eq_starStar_iff (k : TokenKind) : k = .starStar ↔ precedence k = 12 := by
  cases k <;> decide +kernel

/-- Of two operators around an operand, exactly one takes it. -/
lemma fitsLeft_iff (a b : TokenKind) : FitsLeft a b ↔ ¬ FitsRight a b := by
  have ha := precedence_le a
  have hb := precedence_le b
  simp only [FitsLeft, FitsRight, eq_starStar_iff]
  split <;> split <;> omega

/-- What an operator takes on its right, each looser one takes as well. -/
lemma FitsRight.looser {a b k : TokenKind} (h : FitsRight b k)
    (hab : precedence a ≤ precedence b) : FitsRight a k := by
  have ha := precedence_le a
  simp only [FitsRight, eq_starStar_iff] at h ⊢
  split at h <;> split <;> omega

/-- What fits on the right of an operator, each tighter one does as well. -/
lemma FitsRight.tighter {a b k : TokenKind} (h : FitsRight k a)
    (hab : precedence a ≤ precedence b) : FitsRight k b := by
  simp only [FitsRight, eq_starStar_iff] at h ⊢
  split at h <;> split <;> omega

lemma FitsRight.precedence_le {a b : TokenKind} (h : FitsRight a b) :
    precedence a ≤ precedence b := by
  simp only [FitsRight] at h
  split at h <;> omega

lemma FitsLeft.precedence_le {a b : TokenKind} (h : FitsLeft a b) :
    precedence b ≤ precedence a := by
  simp only [FitsLeft] at h
  split at h <;> omega

/-! ### Trees -/

/-- Operands joined by operators. -/
inductive OperatorTree
  | operand (name : Token)
  | join (left : OperatorTree) (operator : Token) (right : OperatorTree)

namespace OperatorTree

/-- The tokens in order. -/
def tokens : OperatorTree → List Token
  | operand x => [x]
  | join l o r => l.tokens ++ o :: r.tokens

/-- The operator of the whole tree. -/
def operator? : OperatorTree → Option Token
  | operand _ => none
  | join _ o _ => some o

/-- Each operator may stand where it does. -/
def IsGrouped : OperatorTree → Prop
  | operand _ => True
  | join l o r =>
    l.IsGrouped ∧ r.IsGrouped ∧ (∀ p ∈ l.operator?, FitsLeft p.kind o.kind) ∧
      ∀ q ∈ r.operator?, FitsRight o.kind q.kind

/-- The tree as a node from no file. -/
def node : OperatorTree → Node
  | operand x => .leaf .name x.value .none
  | join l o r => ⟨.binary, o.lexeme, .none, {}, [l.node, r.node]⟩

def first : OperatorTree → Token
  | operand x => x
  | join l _ _ => l.first

/-- The operators, each with the operand after it. -/
def rest : OperatorTree → List (Token × Token)
  | operand _ => []
  | join l o r => l.rest ++ (o, r.first) :: r.rest

/-- Operators and the operands after them as tokens. -/
def flat (rest : List (Token × Token)) : List Token := rest.flatMap fun (o, x) => [o, x]

variable {t u l r : OperatorTree} {o x : Token}

lemma tokens_eq (t : OperatorTree) : t.tokens = t.first :: flat t.rest := by
  induction t with
  | operand x => rfl
  | join l o r left right => simp [tokens, left, right, first, rest, flat]

lemma flat_inj {a b : List (Token × Token)} (h : flat a = flat b) : a = b := by
  induction a generalizing b with
  | nil =>
    cases b with
    | nil => rfl
    | cons q b => cases h
  | cons p a ih =>
    cases b with
    | nil => cases h
    | cons q b =>
      simp only [flat, List.flatMap_cons, List.cons_append, List.nil_append, List.cons.injEq] at h
      obtain ⟨operator, operand, others⟩ := h
      rw [ih others, Prod.ext operator operand]

/-- No operator in a grouped tree binds looser than that of the whole tree. -/
lemma IsGrouped.loosest (h : t.IsGrouped) (ho : t.operator? = some o) :
    ∀ p ∈ t.rest, precedence o.kind ≤ precedence p.1.kind := by
  induction t generalizing o with
  | operand x => cases ho
  | join l q r left right =>
    obtain ⟨groupedL, groupedR, fitsL, fitsR⟩ := h
    cases ho
    intro p hp
    rw [rest, List.mem_append, List.mem_cons] at hp
    rcases hp with hp | rfl | hp
    · cases l with
      | operand => cases hp
      | join _ a _ => exact Nat.le_trans (fitsL a rfl).precedence_le (left groupedL rfl p hp)
    · exact Nat.le_refl _
    · cases r with
      | operand => cases hp
      | join _ b _ => exact Nat.le_trans (fitsR b rfl).precedence_le (right groupedR rfl p hp)

/-! ### From left to right -/

/-- The tree with one more operator and operand behind it. -/
def insert (t : OperatorTree) (op x : Token) : OperatorTree :=
  match t with
  | operand y => join (operand y) op (operand x)
  | join l o r =>
    if FitsRight o.kind op.kind then join l o (r.insert op x)
    else join (join l o r) op (operand x)

/-- The tree with more operators and operands behind it. -/
def extend (t : OperatorTree) (rest : List (Token × Token)) : OperatorTree :=
  rest.foldl (fun t (o, x) => t.insert o x) t

lemma tokens_insert (t : OperatorTree) (o x : Token) :
    (t.insert o x).tokens = t.tokens ++ [o, x] := by
  induction t with
  | operand y => rfl
  | join l q r left right =>
    rw [insert]
    split
    · simp [tokens, right]
    · simp [tokens]

lemma tokens_extend (t : OperatorTree) (rest : List (Token × Token)) :
    (t.extend rest).tokens = t.tokens ++ flat rest := by
  induction rest generalizing t with
  | nil => exact (List.append_nil _).symm
  | cons p rest ih =>
    calc (t.extend (p :: rest)).tokens = (t.insert p.1 p.2).tokens ++ flat rest := ih _
      _ = t.tokens ++ [p.1, p.2] ++ flat rest := by rw [tokens_insert]
      _ = t.tokens ++ flat (p :: rest) := List.append_assoc ..

/-- The operator of the whole tree is the new one or stays. -/
lemma operator?_insert (t : OperatorTree) (o x : Token) :
    (t.insert o x).operator? = some o ∨ (t.insert o x).operator? = t.operator? := by
  cases t with
  | operand y => exact .inl rfl
  | join l q r =>
    rw [insert]
    split
    · exact .inr rfl
    · exact .inl rfl

lemma IsGrouped.insert (h : t.IsGrouped) (o x : Token) : (t.insert o x).IsGrouped := by
  induction t with
  | operand y => simp [OperatorTree.insert, IsGrouped, operator?]
  | join l q r left right =>
    obtain ⟨groupedL, groupedR, fitsL, fitsR⟩ := id h
    rw [OperatorTree.insert]
    split
    next fits =>
      refine ⟨groupedL, right groupedR, fitsL, fun p hp => ?_⟩
      rcases operator?_insert r o x with new | same
      · rw [new] at hp
        cases hp
        exact fits
      · exact fitsR p (same ▸ hp)
    next fits =>
      refine ⟨h, trivial, fun p hp => ?_, by simp [operator?]⟩
      cases hp
      exact (fitsLeft_iff _ _).mpr fits

lemma IsGrouped.extend (h : t.IsGrouped) (rest : List (Token × Token)) :
    (t.extend rest).IsGrouped := by
  induction rest generalizing t with
  | nil => exact h
  | cons p rest ih => exact ih (h.insert p.1 p.2)

/-! ### Uniqueness -/

/-- An operator that fits nowhere below comes on top. -/
lemma insert_eq (h : ∀ p ∈ t.operator?, FitsLeft p.kind o.kind) :
    t.insert o x = join t o (operand x) := by
  cases t with
  | operand y => rfl
  | join l q r => exact if_neg ((fitsLeft_iff _ _).mp (h q rfl))

/-- Operators that fit below go there. -/
lemma extend_join {rest : List (Token × Token)} (h : ∀ p ∈ rest, FitsRight o.kind p.1.kind) :
    (join l o r).extend rest = join l o (r.extend rest) := by
  induction rest generalizing r with
  | nil => rfl
  | cons p rest ih =>
    obtain ⟨first, others⟩ := List.forall_mem_cons.mp h
    have below : (join l o r).insert p.1 p.2 = join l o (r.insert p.1 p.2) := if_pos first
    calc (join l o r).extend (p :: rest)
        = (join l o (r.insert p.1 p.2)).extend rest := congrArg (extend · rest) below
      _ = join l o (r.extend (p :: rest)) := ih others

lemma extend_append (t : OperatorTree) (a b : List (Token × Token)) :
    t.extend (a ++ b) = (t.extend a).extend b := List.foldl_append

/-- A grouped tree is the one found from left to right. -/
lemma IsGrouped.extend_first (h : t.IsGrouped) : (operand t.first).extend t.rest = t := by
  induction t with
  | operand x => rfl
  | join l o r left right =>
    obtain ⟨groupedL, groupedR, fitsL, fitsR⟩ := h
    have below : ∀ p ∈ r.rest, FitsRight o.kind p.1.kind := by
      cases r with
      | operand => simp [rest]
      | join _ q _ => exact fun p hp => (fitsR q rfl).tighter (groupedR.loosest rfl p hp)
    calc (operand l.first).extend (l.rest ++ (o, r.first) :: r.rest)
        = (l.insert o r.first).extend r.rest := by rw [extend_append, left groupedL]; rfl
      _ = (join l o (operand r.first)).extend r.rest := by rw [insert_eq fitsL]
      _ = join l o r := by rw [extend_join below, right groupedR]

/-- There is one grouped tree for some tokens. -/
lemma IsGrouped.unique (h : t.IsGrouped) (hu : u.IsGrouped) (same : t.tokens = u.tokens) :
    t = u := by
  rw [tokens_eq, tokens_eq] at same
  obtain ⟨first, rest⟩ := List.cons.inj same
  calc t = (operand t.first).extend t.rest := h.extend_first.symm
    _ = (operand u.first).extend u.rest := by rw [first, flat_inj rest]
    _ = u := hu.extend_first

end OperatorTree

end ModuleLint.Grammar
