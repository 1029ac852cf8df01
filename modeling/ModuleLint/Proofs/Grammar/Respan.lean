import Mathlib.Tactic.Common
import ModuleLint.Grammar.Reader

/-!
Changes of spans.

Readers put spans into nodes and faults and look at nothing in them. So a change of spans that
respects merging may as well be made after reading as before. `Respans g p q` says so of a reader
`p`: on changed tokens, `q` does what `p` does and changes its value by `g`. The rules follow the
way readers are put together.
-/

namespace ModuleLint

/-- A change of spans that respects merging. -/
structure Respan where
  span : Span → Span
  merge (a b : Span) : span (a.merge b) = (span a).merge (span b)

namespace Respan

/-- All spans in one file. -/
def intoFile (file : Bytes) : Respan := ⟨fun s => { s with file }, fun _ _ => rfl⟩

/-- No spans at all. -/
def forget : Respan := ⟨fun _ => .none, fun _ _ => rfl⟩

end Respan

variable (φ : Respan)

/-! ### What has spans -/

def Token.respan (t : Token) : Token := { t with span := φ.span t.span }

def SyntaxFault.respan (f : SyntaxFault) : SyntaxFault := { f with span := φ.span f.span }

namespace Node

mutual

def respan : Node → Node
  | ⟨kind, value, span, flags, children⟩ => ⟨kind, value, φ.span span, flags, respanAll children⟩

def respanAll : List Node → List Node
  | [] => []
  | n :: rest => n.respan :: respanAll rest

end

lemma respanAll_eq (l : List Node) : respanAll φ l = l.map (respan φ) := by
  induction l with
  | nil => rfl
  | cons n l ih => rw [respanAll, ih, List.map_cons]

@[simp] lemma respan_mk (kind : NodeKind) (value : Bytes) (span : Span) (flags : NodeFlags)
    (l : List Node) :
    (Node.mk kind value span flags l).respan φ =
      ⟨kind, value, φ.span span, flags, l.map (respan φ)⟩ := by
  rw [respan, respanAll_eq]

@[simp] lemma respan_of (kind : NodeKind) (span : Span) (l : List Node) :
    (Node.of kind span l).respan φ = Node.of kind (φ.span span) (l.map (respan φ)) :=
  respan_mk φ kind [] span {} l

@[simp] lemma respan_leaf (kind : NodeKind) (value : Bytes) (span : Span) :
    (Node.leaf kind value span).respan φ = Node.leaf kind value (φ.span span) :=
  respan_mk φ kind value span {} []

@[simp] lemma kind_respan (n : Node) : (n.respan φ).kind = n.kind := by
  cases n
  rw [respan_mk]

@[simp] lemma span_respan (n : Node) : (n.respan φ).span = φ.span n.span := by
  cases n
  rw [respan_mk]

@[simp] lemma children_respan (n : Node) : (n.respan φ).children = n.children.map (respan φ) := by
  cases n
  rw [respan_mk]

/-- The span of a node itself is changed with those below it or apart from them. -/
lemma respan_withSpan (n : Node) (span : Span) :
    { n with span }.respan φ = { n.respan φ with span := φ.span span } := by
  cases n
  rw [respan_mk, respan_mk]

end Node

def ReaderState.respan (s : ReaderState) : ReaderState where
  previous := s.previous.respan φ
  current := s.current.respan φ
  ahead := s.ahead.map (·.respan φ)
  faults := s.faults.map (·.respan φ)
  allowsIn := s.allowsIn
  omitted := s.omitted

/-- The reply with its value changed as well. -/
def Reply.respan {α β : Type} (g : α → β) : Reply α → Reply β
  | .ok a s => .ok (g a) (s.respan φ)
  | .fault f s => .fault (f.respan φ) (s.respan φ)
  | .stuck => .stuck

namespace Reader

def Turn.respan : Turn → Turn
  | .more items => .more (items.map (·.respan φ))
  | .last items => .last (items.map (·.respan φ))

section Judgment

variable {α β : Type}

/-- On changed tokens `q` does what `p` does, and changes its value. -/
def Respans (g : α → β) (p : Reader α) (q : Reader β) : Prop :=
  ∀ s : ReaderState, q (s.respan φ) = (p s).respan φ g

/-- A reader of nodes that hands changed spans on. -/
abbrev Carries (p q : Reader Node) : Prop := Respans φ (·.respan φ) p q

/-- A reader whose value has no spans in it. -/
abbrev Ignores (p : Reader α) : Prop := Respans φ id p p

end Judgment

section Rules

variable {φ} {α β γ δ : Type} {g : α → β} {p p' : Reader α} {q q' : Reader β}

/-- Whatever is read from the changed tokens is read, but for the change, from the tokens. -/
lemma Respans.ok {s v : ReaderState} {b : β} (h : Respans φ g p q)
    (run : q (s.respan φ) = .ok b v) : ∃ a u, p s = .ok a u ∧ g a = b ∧ u.respan φ = v := by
  rw [h s] at run
  cases reply : p s with
  | ok a u =>
    rw [reply] at run
    obtain ⟨value, state⟩ := Reply.ok.inj run
    exact ⟨a, u, rfl, value, state⟩
  | fault fault u =>
    rw [reply] at run
    cases run
  | stuck =>
    rw [reply] at run
    cases run

lemma respans_pure {a : α} {b : β} (h : b = g a) : Respans φ g (pure a) (pure b) := by
  subst h
  exact fun _ => rfl

lemma carries_pure (n : Node) : Carries φ (pure n) (pure (n.respan φ)) := respans_pure rfl

lemma ignores_pure (a : α) : Ignores φ (pure a) := respans_pure rfl

lemma Respans.bind {h : γ → δ} {f : α → Reader γ} {f' : β → Reader δ} (hp : Respans φ g p q)
    (hf : ∀ a, Respans φ h (f a) (f' (g a))) : Respans φ h (p >>= f) (q >>= f') := by
  intro s
  change andThen q f' _ = (andThen p f s).respan φ h
  unfold andThen
  rw [hp s]
  cases p s with
  | ok a t => exact hf a t
  | fault fault t => rfl
  | stuck => rfl

/-- A first part whose value has no spans in it. -/
lemma Ignores.bind {h : γ → δ} {f : α → Reader γ} {f' : α → Reader δ} (hp : Ignores φ p)
    (hf : ∀ a, Respans φ h (f a) (f' a)) : Respans φ h (p >>= f) (p >>= f') :=
  Respans.bind hp hf

lemma Respans.ite {c : Prop} [Decidable c] (hp : Respans φ g p q) (hp' : Respans φ g p' q') :
    Respans φ g (if c then p else p') (if c then q else q') := by
  split
  · exact hp
  · exact hp'

lemma respans_look {f : ReaderState → α} {f' : ReaderState → β}
    (h : ∀ s, f' (s.respan φ) = g (f s)) : Respans φ g (look f) (look f') := by
  intro s
  change Reply.ok (f' _) _ = Reply.ok (g (f s)) _
  rw [h]

lemma ignores_look {f : ReaderState → α} (h : ∀ s, f (s.respan φ) = f s) : Ignores φ (look f) :=
  respans_look h

lemma respans_fail {error : SyntaxError} {span : Span} :
    Respans φ g (fail error span) (fail error (φ.span span)) := fun _ => rfl

lemma respans_failHere {error : TokenKind → SyntaxError} :
    Respans φ g (failHere error) (failHere error) := fun _ => rfl

end Rules

/-! ### Tokens -/

section Tokens

lemma nextToken_respan (s : ReaderState) : nextToken (s.respan φ) = (nextToken s).respan φ := by
  unfold nextToken ReaderState.respan
  cases s.ahead <;> rfl

lemma step_respan (s : ReaderState) : step (s.respan φ) = (step s).respan φ := by
  by_cases h : s.current.kind = .eof
  · have h' : (s.respan φ).current.kind = .eof := h
    rw [step, step, if_pos h, if_pos h']
  · have h' : (s.respan φ).current.kind ≠ .eof := h
    rw [step, step, if_neg h, if_neg h']
    obtain ⟨previous, current, ahead, faults, allowsIn⟩ := s
    cases ahead <;> rfl

lemma current_respans : Respans φ (·.respan φ) current current := respans_look fun _ => rfl

lemma here_respans : Respans φ φ.span here here := respans_look fun _ => rfl

lemma isAt_ignores (kind : TokenKind) : Ignores φ (isAt kind) := ignores_look fun _ => rfl

lemma isAtAny_ignores (kinds : List TokenKind) : Ignores φ (isAtAny kinds) :=
  ignores_look fun _ => rfl

lemma advance_respans : Respans φ (·.respan φ) advance advance := by
  intro s
  change Reply.ok _ (step (s.respan φ)) = _
  rw [step_respan]
  rfl

lemma accept_ignores (kind : TokenKind) : Ignores φ (accept kind) := by
  unfold accept
  refine (isAt_ignores φ kind).bind fun found => .ite ?_ (ignores_pure false)
  exact (advance_respans φ).bind fun t => ignores_pure true

lemma expect_respans (kind : TokenKind) (what : Expectation) :
    Respans φ (·.respan φ) (expect kind what) (expect kind what) := by
  unfold expect
  exact (isAt_ignores φ kind).bind fun found => .ite (advance_respans φ) respans_failHere

lemma omitSemicolon_ignores : Ignores φ omitSemicolon := by
  intro s
  simp [omitSemicolon, ReaderState.respan, Reply.respan]

lemma semicolon_ignores : Ignores φ semicolon := by
  unfold semicolon
  refine (accept_ignores φ .semi).bind fun found => .ite (ignores_pure ()) ?_
  exact (current_respans φ).bind fun t => .ite (omitSemicolon_ignores φ) respans_failHere

lemma acceptWord_ignores (word : Bytes) {applies : Token → Bool}
    (h : ∀ t, applies (t.respan φ) = applies t) : Ignores φ (acceptWord word applies) := by
  unfold acceptWord
  refine (ignores_look fun s => ?_).bind fun found => .ite ?_ (ignores_pure false)
  · rw [nextToken_respan, h]
    rfl
  · exact (advance_respans φ).bind fun t => ignores_pure true

lemma extended_carries (n : Node) : Carries φ (extended n) (extended (n.respan φ)) := by
  refine respans_look fun s => ?_
  rw [Node.respan_withSpan, φ.merge, Node.span_respan]
  rfl

/-- The node with the parts of a changed one. -/
lemma extended_mk (kind : NodeKind) (value : Bytes) (span : Span) (flags : NodeFlags)
    (l : List Node) :
    Carries φ (extended ⟨kind, value, span, flags, l⟩)
      (extended ⟨kind, value, φ.span span, flags, l.map (·.respan φ)⟩) := by
  rw [← Node.respan_mk]
  exact extended_carries φ _

lemma node_carries (kind : NodeKind) (start : Span) (children : List Node) :
    Carries φ (node kind start children)
      (node kind (φ.span start) (children.map (·.respan φ))) :=
  extended_mk φ kind [] start {} children

end Tokens

/-! ### The operator `in` -/

section In

variable {φ} {α β : Type} {g : α → β} {p : Reader α} {q : Reader β}

lemma Respans.withIn (h : Respans φ g p q) (allows : Bool) :
    Respans φ g (withIn allows p) (withIn allows q) := by
  intro s
  have inside := h { s with allowsIn := allows }
  change q { s.respan φ with allowsIn := allows } = _ at inside
  unfold Reader.withIn
  rw [inside]
  cases p { s with allowsIn := allows } <;> rfl

lemma Respans.allowingIn (h : Respans φ g p q) : Respans φ g (allowingIn p) (allowingIn q) := by
  have set (allows : Bool) : Ignores φ (setAllowsIn allows) := fun _ => rfl
  unfold Reader.allowingIn
  refine (ignores_look fun _ => rfl).bind fun before => (set true).bind fun _ => h.bind fun a => ?_
  exact (set before).bind fun _ => respans_pure rfl

end In

/-! ### Loops -/

section Loops

variable {φ}

lemma Respans.repeatedly {turn turn' : Reader Turn} (h : Respans φ (Turn.respan φ) turn turn') :
    Respans φ (List.map (·.respan φ)) (repeatedly turn) (repeatedly turn') := by
  have atMost : ∀ bound, Respans φ (List.map (·.respan φ)) (repeatedAtMost turn bound)
      (repeatedAtMost turn' bound) := by
    intro bound
    induction bound with
    | zero => exact fun _ => rfl
    | succ bound ih =>
      refine h.bind fun u => ?_
      cases u with
      | last items => exact respans_pure rfl
      | more items => exact ih.bind fun more => respans_pure (List.map_append ..).symm
  intro s
  unfold Reader.repeatedly
  rw [← atMost]
  simp only [ReaderState.respan, List.length_map]

lemma Respans.growing {turn turn' : Node → Reader (Option Node)}
    (h : ∀ n, Respans φ (Option.map (·.respan φ)) (turn n) (turn' (n.respan φ))) (n : Node) :
    Carries φ (growing turn n) (growing turn' (n.respan φ)) := by
  have atMost : ∀ bound n, Carries φ (grownAtMost turn bound n)
      (grownAtMost turn' bound (n.respan φ)) := by
    intro bound
    induction bound with
    | zero => exact fun _ _ => rfl
    | succ bound ih =>
      intro n
      refine (h n).bind fun r => ?_
      cases r with
      | none => exact carries_pure n
      | some m => exact ih m
  intro s
  unfold Reader.growing
  rw [← atMost]
  simp only [ReaderState.respan, List.length_map]

lemma Carries.list {item item' : Reader Node} (h : Carries φ item item') (close : TokenKind)
    (holes : Bool) :
    Respans φ (List.map (·.respan φ)) (list close holes item) (list close holes item') := by
  refine Respans.repeatedly ((current_respans φ).bind fun t => .ite (respans_pure rfl) ?_)
  refine .ite ((advance_respans φ).bind fun comma => respans_pure ?_) (h.bind fun n => ?_)
  · simp only [Turn.respan, List.map_cons, List.map_nil, Node.respan_of]
    rfl
  · exact (accept_ignores φ .comma).bind fun more => .ite (respans_pure rfl) (respans_pure rfl)

/-! ### Recovery -/

lemma skipAhead_respan (bound : Nat) (s : ReaderState) :
    skipAhead bound (s.respan φ) = (skipAhead bound s).respan φ := by
  induction bound generalizing s with
  | zero => rfl
  | succ bound ih =>
    let stops (s : ReaderState) : Prop := s.current.kind = .eof ∨ s.previous.kind = .semi ∨
      startsStatement s.current.kind ∨ s.current.kind = .rbrace ∨ s.current.newlineBefore
    by_cases h : stops s
    · have h' : stops (s.respan φ) := h
      rw [skipAhead, skipAhead, if_pos h, if_pos h']
    · have h' : ¬ stops (s.respan φ) := h
      rw [skipAhead, skipAhead, if_neg h, if_neg h', step_respan, ih]

lemma toNextStatement_respan (s : ReaderState) :
    toNextStatement (s.respan φ) = (toNextStatement s).respan φ := by
  unfold toNextStatement
  rw [step_respan, skipAhead_respan]
  simp only [ReaderState.respan, List.length_map]

lemma Carries.recovering {p q : Reader Node} (h : Carries φ p q) :
    Respans φ (List.map (·.respan φ)) (recovering p) (recovering q) := by
  intro s
  unfold Reader.recovering
  rw [h s]
  cases p s with
  | ok n t => rfl
  | stuck => rfl
  | fault fault t =>
    let faulty : ReaderState := { t with faults := t.faults ++ [fault] }
    have changed : { t.respan φ with faults := (t.respan φ).faults ++ [fault.respan φ] } =
        faulty.respan φ := by
      simp [ReaderState.respan, faulty]
    change Reply.ok [] (toNextStatement { t.respan φ with faults := _ }) = _
    rw [changed, toNextStatement_respan]
    rfl

lemma Carries.statements {p q : Reader Node} (h : Carries φ p q) (ends : List TokenKind) :
    Respans φ (List.map (·.respan φ)) (statements p ends) (statements q ends) := by
  refine Respans.repeatedly ((isAtAny_ignores φ _).bind fun found => ?_)
  exact .ite (respans_pure rfl) (h.recovering.bind fun l => respans_pure rfl)

end Loops

end Reader

end ModuleLint
