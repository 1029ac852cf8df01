import ModuleLint.Proofs.Grammar.Concatenation
import ModuleLint.Proofs.Grammar.Regular
import ModuleLint.Proofs.Grammar.Yield

/-!
Readers where `in` is no operator.

In the first part of a `for` head `in` is no operator. Brackets of most kinds make it one again, but
those of parameters, of patterns and of classes do not. `Narrows` says of a success where `in` is an
operator that it is one as well where `in` is none, or else what is to blame: an operator `in` in
such brackets, or one that stands where the reader says that operators may.
-/

namespace ModuleLint

/-! ### Operators in a tree -/

/-- Nodes in which an operator `in` of a child stands in no brackets of the node. -/
def NodeKind.passesIn : NodeKind → Bool
  | .binary | .conditional | .assign | .assignOp | .function | .defaultValue | .stringKey
  | .computedProp | .memberField | .name | .destructuring | .varDecl | .letDecl | .constDecl => true
  | _ => false

/-- Nodes with brackets in which `in` is an operator only where it is one outside. -/
def NodeKind.forgetsIn : NodeKind → Bool
  | .paramList | .objectPattern | .arrayPattern | .classMembers => true
  | _ => false

namespace Node

mutual

/-- Whether a node holds an operator `in` that stands in none of its brackets. The parentheses of an
expression leave no node, so that they are not seen. -/
def holdsIn : Node → Bool
  | ⟨kind, value, _, _, children⟩ =>
    kind == .binary && value == ascii "in" || kind.passesIn && anyHoldsIn children

def anyHoldsIn : List Node → Bool
  | [] => false
  | n :: rest => holdsIn n || anyHoldsIn rest

end

mutual

/-- Whether a tree has an operator `in` in brackets of parameters, of a pattern or of a class, and
in no brackets between. -/
def exposesIn : Node → Bool
  | ⟨kind, _, _, _, children⟩ => kind.forgetsIn && anyHoldsIn children || anyExposesIn children

def anyExposesIn : List Node → Bool
  | [] => false
  | n :: rest => exposesIn n || anyExposesIn rest

end

lemma anyHoldsIn_eq (l : List Node) : anyHoldsIn l = l.any holdsIn := by
  induction l with
  | nil => rfl
  | cons n rest ih => rw [anyHoldsIn, List.any_cons, ih]

lemma anyExposesIn_eq (l : List Node) : anyExposesIn l = l.any exposesIn := by
  induction l with
  | nil => rfl
  | cons n rest ih => rw [anyExposesIn, List.any_cons, ih]

lemma holdsIn_of_operator {n : Node} (kind : n.kind = .binary) (value : n.value = ascii "in") :
    n.holdsIn := by
  cases n
  subst kind value
  simp [holdsIn]

lemma holdsIn_of_child {n c : Node} (kind : n.kind.passesIn) (hc : c ∈ n.children)
    (h : c.holdsIn) : n.holdsIn := by
  cases n
  rw [holdsIn, anyHoldsIn_eq, Bool.or_eq_true]
  exact .inr (Bool.and_eq_true_iff.mpr ⟨kind, List.any_eq_true.mpr ⟨c, hc, h⟩⟩)

lemma exposesIn_of_holdsIn {n c : Node} (kind : n.kind.forgetsIn) (hc : c ∈ n.children)
    (h : c.holdsIn) : n.exposesIn := by
  cases n
  rw [exposesIn, anyHoldsIn_eq, Bool.or_eq_true]
  exact .inl (Bool.and_eq_true_iff.mpr ⟨kind, List.any_eq_true.mpr ⟨c, hc, h⟩⟩)

lemma exposesIn_of_child {n c : Node} (hc : c ∈ n.children) (h : c.exposesIn) : n.exposesIn := by
  cases n
  rw [exposesIn, anyExposesIn_eq, Bool.or_eq_true]
  exact .inr (List.any_eq_true.mpr ⟨c, hc, h⟩)

end Node

/-! ### The judgement -/

/-- The state where `in` is no operator. -/
def ReaderState.narrow (s : ReaderState) : ReaderState := { s with allowsIn := false }

/-- Each keyword `in` is spelled so. -/
def SpellsIn (l : List Token) : Prop := ∀ t ∈ l, t.kind = .kwIn → t.lexeme = ascii "in"

instance (l : List Token) : Decidable (SpellsIn l) :=
  inferInstanceAs (Decidable (∀ t ∈ l, t.kind = .kwIn → t.lexeme = ascii "in"))

lemma SpellsIn.suffix {l m : List Token} (h : SpellsIn m) (hl : l <:+ m) : SpellsIn l :=
  fun t ht => h t (hl.subset ht)

/-- How far operators `in` of a reader are seen from outside its brackets. -/
inductive Reach
  /-- None is. -/
  | sealed
  /-- Those outside all brackets. -/
  | level
  /-- All of them. -/
  | deep

/-- An operator that is taken between the states and seen from outside. -/
def Reach.Sees : Reach → ReaderState → ReaderState → Prop
  | .sealed, _, _ => False
  | .level, s, t => ∃ u : ReaderState, s.Encloses u ∧ u.current.kind = .kwIn ∧
      t.tokens <:+ u.ahead
  | .deep, _, _ => True

/-- Some of the nodes, read between the states, are to blame. -/
def Reach.Blames (r : Reach) (s t : ReaderState) (l : List Node) : Prop :=
  (∃ n ∈ l, n.exposesIn) ∨ (∃ n ∈ l, n.holdsIn) ∧ r.Sees s t

namespace Reader

section Judgement

variable {α : Type}

/-- What a success without faults from `s` to `t` means where `in` is an operator. -/
structure Narrowing (r : Reach) (nodes : α → List Node) (e h : List Node) (p : Reader α)
    (s t : ReaderState) (a : α) : Prop where
  exposes : ∀ n ∈ e, n.exposesIn → ∃ m ∈ nodes a, m.exposesIn
  holds : r ≠ .sealed → ∀ n ∈ h, n.holdsIn → ∃ m ∈ nodes a, m.holdsIn
  nested : r = .level → s.Encloses t
  narrow : p s.narrow = .ok a t.narrow ∨ r.Blames s t (nodes a)

/-- From a state at a `place`, where `in` is no operator the reader does the same, or else the nodes
of its value are to blame; these also show what nodes `e` expose and what nodes `h` hold, which were
read before. -/
def Narrows (place : ReaderState → Prop) (r : Reach) (nodes : α → List Node) (e h : List Node)
    (p : Reader α) : Prop :=
  ∀ s a t, place s → p s = .ok a t → t.faults = [] → HasEnd t.tokens → s.allowsIn = true →
    SpellsIn s.tokens → Narrowing r nodes e h p s t a

/-- The reader does not see whether `in` is an operator. -/
class Blind (p : Reader α) : Prop where
  narrow : ∀ s a t, p s = .ok a t → p s.narrow = .ok a t.narrow

/-- From a state at a `place` the reader closes the brackets that it opens, and no others. -/
def Nests (place : ReaderState → Prop) (p : Reader α) : Prop :=
  ∀ s a t, place s → p s = .ok a t → t.faults = [] → HasEnd t.tokens → s.Encloses t

end Judgement

/-! ### Readers that see nothing -/

section Blindness

variable {α β : Type} {p q : Reader α} {f : α → Reader β}

lemma blind_look {g : ReaderState → α} (h : ∀ s : ReaderState, g s.narrow = g s) :
    Blind (look g) where
  narrow s a t run := by
    cases run
    exact congrArg (Reply.ok · s.narrow) (h s)

instance (a : α) : Blind (pure a : Reader α) := blind_look fun _ => rfl

instance : Blind current := blind_look fun _ => rfl

instance : Blind here := blind_look fun _ => rfl

instance (kind : TokenKind) : Blind (isAt kind) := blind_look fun _ => rfl

instance (kinds : List TokenKind) : Blind (isAtAny kinds) := blind_look fun _ => rfl

instance (kind : NodeKind) (start : Span) (l : List Node) : Blind (node kind start l) :=
  blind_look fun _ => rfl

instance (error : TokenKind → SyntaxError) : Blind (failHere error : Reader α) where
  narrow s a t run := by cases run

lemma step_narrow (s : ReaderState) : step s.narrow = (step s).narrow := by
  obtain ⟨previous, current, ahead, faults, allowsIn, omitted⟩ := s
  by_cases h : current.kind = .eof
  · simp [step, ReaderState.narrow, h]
  · cases ahead <;> simp [step, ReaderState.narrow, h]

instance : Blind advance where
  narrow s a t run := by
    cases run
    exact congrArg (Reply.ok s.current) (step_narrow s)

instance : Blind omitSemicolon where
  narrow s a t run := by
    cases run
    rfl

lemma Blind.bind (hp : Blind p) (hf : ∀ a, Blind (f a)) : Blind (p >>= f) where
  narrow s b t run := by
    obtain ⟨a, u, first, second⟩ := bind_eq_ok run
    exact (bind_of_ok (hp.narrow s a u first)).trans ((hf a).narrow u b t second)

instance [Blind p] [∀ a, Blind (f a)] : Blind (p >>= f) := .bind inferInstance inferInstance

lemma Blind.either {c : Prop} [Decidable c] (hp : Blind p) (hq : Blind q) :
    Blind (if c then p else q) := by
  split
  · exact hp
  · exact hq

instance {c : Prop} [Decidable c] [Blind p] [Blind q] : Blind (if c then p else q) :=
  .either inferInstance inferInstance

instance (allows : Bool) : Blind (withIn allows p) where
  narrow s a t run := by
    obtain ⟨u, inner, rfl⟩ := withIn_eq_ok.mp run
    exact withIn_eq_ok.mpr ⟨u, inner, rfl⟩

instance : Blind (allowingIn p) where
  narrow s a t run := by
    obtain ⟨u, inner, rfl⟩ := allowingIn_eq_ok.mp run
    exact allowingIn_eq_ok.mpr ⟨u, inner, rfl⟩

instance (kind : TokenKind) : Blind (accept kind) := by
  unfold accept
  infer_instance

instance (kind : TokenKind) (what : Expectation) : Blind (expect kind what) := by
  unfold expect
  infer_instance

instance : Blind semicolon := by
  unfold semicolon
  infer_instance

instance (word : Bytes) (applies : Token → Bool) : Blind (acceptWord word applies) := by
  have seen : Blind (look fun s => isWord word s.current && applies (nextToken s)) :=
    blind_look fun _ => rfl
  unfold acceptWord
  infer_instance

end Blindness

/-! ### Readers that close their brackets -/

section Nesting

variable {α : Type} {place place' : ReaderState → Prop} {p : Reader α} {s t u : ReaderState}

lemma encloses_refl (s : ReaderState) : s.Encloses s := ⟨[], rfl, rfl⟩

lemma encloses_trans (h : s.Encloses t) (h' : t.Encloses u) : s.Encloses u := by
  obtain ⟨l, split, nested⟩ := h
  obtain ⟨m, split', nested'⟩ := h'
  refine ⟨l ++ m, ?_, ?_⟩
  · rw [split, split', List.append_assoc]
  · rw [depthAfter_append, nested]
    exact nested'

lemma tokens_step_of_hasEnd (notEnd : s.current.kind ≠ .eof) (ends : HasEnd (step s).tokens) :
    (step s).tokens = s.ahead := by
  obtain ⟨x, rest, ahead⟩ := Edit.exists_ahead ends notEnd
  rw [Edit.step_of_ahead notEnd ahead, ahead]
  rfl

lemma encloses_step (h : s.current.kind.depthAfter 0 = some 0) (ends : HasEnd (step s).tokens) :
    s.Encloses (step s) := by
  refine ⟨[s.current], ?_, ?_⟩
  · rw [tokens_step_of_hasEnd (ne_eof_of_depthAfter h) ends]
    rfl
  · rw [depthAfter, h]
    rfl

lemma nests_look {g : ReaderState → α} : Nests place (look g) := by
  intro s a t _ run _ _
  cases run
  exact encloses_refl s

lemma nests_advance (h : ∀ s, place s → s.current.kind.depthAfter 0 = some 0) :
    Nests place advance := by
  intro s a t here run _ ends
  cases run
  exact encloses_step (h s here) ends

lemma nests_accept {kind : TokenKind} (h : kind.depthAfter 0 = some 0) :
    Nests place (accept kind) := by
  intro s a t _ run _ ends
  obtain ⟨found, -, rfl⟩ | ⟨-, -, rfl⟩ := accept_eq_ok run
  · exact encloses_step (found ▸ h) ends
  · exact encloses_refl _

lemma nests_expect {kind : TokenKind} {what : Expectation} (h : kind.depthAfter 0 = some 0) :
    Nests place (expect kind what) := by
  intro s a t _ run _ ends
  obtain ⟨found, -, rfl⟩ := expect_eq_ok run
  exact encloses_step (found ▸ h) ends

/-- What survives an edit that changes nothing closes its brackets. -/
lemma Survives.nests {q : Reader α} {g : α → α} {k : Stand}
    (h : Survives .keeping place .fresh k 0 0 g p q) : Nests place p := by
  intro s a t here run faults ends
  exact ((h s a t here run faults).2 ends (Edit.known_respanning nofun)).nested

end Nesting

/-! ### Rules -/

section Rules

variable {α β : Type} {place place' : ReaderState → Prop} {r : Reach} {c : α → List Node}
  {d : β → List Node} {e h e' h' : List Node} {p q : Reader α} {f : α → Reader β}
  {s t u : ReaderState}

lemma Narrows.mono (hp : Narrows place r c e' h' p) (he : e ⊆ e') (hh : h ⊆ h') :
    Narrows place r c e h p := by
  intro s a t here run faults ends allows spells
  obtain ⟨exposes, holds, nested, narrow⟩ := hp s a t here run faults ends allows spells
  exact ⟨fun n hn => exposes n (he hn), fun seen n hn => holds seen n (hh hn), nested, narrow⟩

/-- What is to blame for a first part is so for the whole, if its nodes are shown in the end. -/
lemma blames_of_first {a : α} {b : β} (blames : r.Blames s u (c a)) (suffix : t.tokens <:+ u.tokens)
    (exposes : ∀ n ∈ c a, n.exposesIn → ∃ m ∈ d b, m.exposesIn)
    (holds : r ≠ .sealed → ∀ n ∈ c a, n.holdsIn → ∃ m ∈ d b, m.holdsIn) : r.Blames s t (d b) := by
  rcases blames with ⟨n, hn, exposed⟩ | ⟨⟨n, hn, held⟩, seen⟩
  · exact .inl (exposes n hn exposed)
  · cases r with
    | sealed => cases seen
    | level =>
      obtain ⟨v, nested, kind, behind⟩ := seen
      exact .inr ⟨holds nofun n hn held, v, nested, kind, suffix.trans behind⟩
    | deep => exact .inr ⟨holds nofun n hn held, trivial⟩

/-- What is to blame for a second part is so for the whole, if the first closes its brackets. -/
lemma blames_of_second {l : List Node} (blames : r.Blames u t l)
    (nested : r = .level → s.Encloses u) : r.Blames s t l := by
  rcases blames with exposed | ⟨held, seen⟩
  · exact .inl exposed
  · refine .inr ⟨held, ?_⟩
    cases r with
    | sealed => cases seen
    | level =>
      obtain ⟨v, behind, kind, rest⟩ := seen
      exact ⟨v, encloses_trans (nested rfl) behind, kind, rest⟩
    | deep => trivial

/-- A part that is read first and shows nodes `e'` and `h'`, and then the rest. -/
lemma Narrows.andThen [Regular p] [∀ a, Regular (f a)] (hp : Narrows place r c e' h' p)
    (hf : ∀ a, Narrows anywhere r d (e ++ c a) (h ++ c a) (f a)) :
    Narrows place r d (e' ++ e) (h' ++ h) (p >>= f) := by
  intro s b t here run faults ends allows spells
  obtain ⟨a, u, first, second⟩ := bind_eq_ok run
  have leads := Regular.leads u b t second faults
  have leads' := Regular.leads s a u first leads.faults
  obtain ⟨exposes, holds, nested, narrow⟩ :=
    hp s a u here first leads.faults (ends.suffix leads.suffix) allows spells
  obtain ⟨exposes', holds', nested', narrow'⟩ := hf a u b t trivial second faults ends
    (leads'.allowsIn.trans allows) (spells.suffix leads'.suffix)
  have shown (n : Node) (hn : n ∈ c a) := exposes' n (List.mem_append_right e hn)
  have shown' (seen : r ≠ .sealed) (n : Node) (hn : n ∈ c a) :=
    holds' seen n (List.mem_append_right h hn)
  refine ⟨fun n hn exposed => ?_, fun seen n hn held => ?_,
    fun level => encloses_trans (nested level) (nested' level), ?_⟩
  · rcases List.mem_append.mp hn with hn | hn
    · obtain ⟨m, hm, exposed⟩ := exposes n hn exposed
      exact shown m hm exposed
    · exact exposes' n (List.mem_append_left _ hn) exposed
  · rcases List.mem_append.mp hn with hn | hn
    · obtain ⟨m, hm, held⟩ := holds seen n hn held
      exact shown' seen m hm held
    · exact holds' seen n (List.mem_append_left _ hn) held
  · rcases narrow with same | blames
    · rcases narrow' with same' | blames
      · exact .inl ((bind_of_ok same).trans same')
      · exact .inr (blames_of_second blames nested)
    · exact .inr (blames_of_first blames leads.suffix shown shown')

lemma Narrows.bind [Regular p] [∀ a, Regular (f a)] (hp : Narrows place r c [] [] p)
    (hf : ∀ a, Narrows anywhere r d (e ++ c a) (h ++ c a) (f a)) :
    Narrows place r d e h (p >>= f) :=
  hp.andThen hf

/-- A part that shows the nodes read before, and then the rest, which shows those of the part. -/
lemma Narrows.through [Regular p] [∀ a, Regular (f a)] (hp : Narrows place r c e h p)
    (hf : ∀ a, Narrows anywhere r d (c a) (c a) (f a)) : Narrows place r d e h (p >>= f) := by
  rw [← List.append_nil e, ← List.append_nil h]
  exact hp.andThen hf

/-- A first part of which no operators are seen. -/
lemma Narrows.bindSealed [Regular p] [∀ a, Regular (f a)] (hp : Narrows place .sealed c [] [] p)
    (nests : r = .level → Nests place p) (hf : ∀ a, Narrows anywhere r d (e ++ c a) h (f a)) :
    Narrows place r d e h (p >>= f) := by
  intro s b t here run faults ends allows spells
  obtain ⟨a, u, first, second⟩ := bind_eq_ok run
  have leads := Regular.leads u b t second faults
  have leads' := Regular.leads s a u first leads.faults
  have ends' := ends.suffix leads.suffix
  have nested (level : r = .level) : s.Encloses u := nests level s a u here first leads.faults ends'
  obtain ⟨-, -, -, narrow⟩ := hp s a u here first leads.faults ends' allows spells
  obtain ⟨exposes, holds, nested', narrow'⟩ := hf a u b t trivial second faults ends
    (leads'.allowsIn.trans allows) (spells.suffix leads'.suffix)
  refine ⟨fun n hn => exposes n (List.mem_append_left _ hn), holds,
    fun level => encloses_trans (nested level) (nested' level), ?_⟩
  rcases narrow with same | ⟨n, hn, exposed⟩ | ⟨-, seen⟩
  · rcases narrow' with same' | blames
    · exact .inl ((bind_of_ok same).trans same')
    · exact .inr (blames_of_second blames nested)
  · exact .inr (.inl (exposes n (List.mem_append_right _ hn) exposed))
  · cases seen

lemma narrows_of_blind [Blind p] : Narrows place .sealed c [] [] p :=
  fun s a t _ run _ _ _ _ => ⟨nofun, nofun, nofun, .inl (Blind.narrow s a t run)⟩

/-- A first part that does not see whether `in` is an operator. -/
lemma Narrows.skip [Blind p] [Regular p] [∀ a, Regular (f a)] (nests : r = .level → Nests place p)
    (hf : ∀ a, Narrows anywhere r d e h (f a)) : Narrows place r d e h (p >>= f) := by
  have hp : Narrows place .sealed (fun _ => []) [] [] p := narrows_of_blind
  refine hp.bindSealed nests fun a => ?_
  rw [List.append_nil]
  exact hf a

/-- What is read off the state does not matter. -/
lemma Narrows.skipLook {g : ReaderState → α} (hg : ∀ s : ReaderState, g s.narrow = g s)
    (hf : ∀ a, Narrows place r d e h (f a)) : Narrows place r d e h (look g >>= f) := by
  intro s b t here run faults ends allows spells
  obtain ⟨exposes, holds, nested, narrow⟩ :=
    hf (g s) s b t here run faults ends allows spells
  refine ⟨exposes, holds, nested, ?_⟩
  rw [← hg s] at narrow
  exact narrow

lemma Narrows.either {b : Prop} [Decidable b] (hp : Narrows place r c e h p)
    (hq : Narrows place r c e h q) : Narrows place r c e h (if b then p else q) := by
  split
  · exact hp
  · exact hq

lemma Narrows.within (hp : Narrows place r c e h p) (hplace : ∀ s, place' s → place s) :
    Narrows place' r c e h p := fun s a t here => hp s a t (hplace s here)

lemma Narrows.wherever (hp : Narrows anywhere r c e h p) : Narrows place r c e h p :=
  hp.within fun _ _ => trivial

/-- A test that does not see whether `in` is an operator. -/
lemma Narrows.test {g : ReaderState → Bool} (hg : ∀ s : ReaderState, g s.narrow = g s)
    (hp : Narrows (g · = true) r c e h p) (hq : Narrows anywhere r c e h q) :
    Narrows place r c e h (look g >>= fun b => if b then p else q) := by
  intro s a t _ run faults ends allows spells
  have branch : Narrowing r c e h (if g s then p else q) s t a := by
    change (if g s then p else q) s = .ok a t at run
    by_cases passed : g s = true
    · rw [if_pos passed] at run ⊢
      exact hp s a t passed run faults ends allows spells
    · rw [if_neg passed] at run ⊢
      exact hq s a t trivial run faults ends allows spells
  obtain ⟨exposes, holds, nested, narrow⟩ := branch
  refine ⟨exposes, holds, nested, ?_⟩
  rw [← hg s] at narrow
  exact narrow

/-- A reader of which no operators are seen, where others might be. -/
lemma Narrows.unseal (hp : Narrows place .sealed c e [] p) (nests : r = .level → Nests place p) :
    Narrows place r c e [] p := by
  intro s a t here run faults ends allows spells
  obtain ⟨exposes, -, -, narrow⟩ := hp s a t here run faults ends allows spells
  refine ⟨exposes, nofun, fun level => nests level s a t here run faults ends, ?_⟩
  rcases narrow with same | exposed | ⟨-, seen⟩
  · exact .inl same
  · exact .inr (.inl exposed)
  · cases seen

/-- Operators outside all brackets are among all operators. -/
lemma Narrows.deepen (hp : Narrows place .level c e h p) : Narrows place .deep c e h p := by
  intro s a t here run faults ends allows spells
  obtain ⟨exposes, holds, -, narrow⟩ := hp s a t here run faults ends allows spells
  refine ⟨exposes, fun _ => holds nofun, nofun, ?_⟩
  rcases narrow with same | exposed | ⟨held, -⟩
  · exact .inl same
  · exact .inr (.inl exposed)
  · exact .inr (.inr ⟨held, trivial⟩)

end Rules

/-! ### Values -/

section Values

/-- The node that a value is. -/
abbrev oneNode (n : Node) : List Node := [n]

variable {α : Type} {place : ReaderState → Prop} {r : Reach} {c : α → List Node}
  {e h l : List Node} {n : Node} {kind : NodeKind} {start : Span}

lemma narrows_pure {a : α} (he : e ⊆ c a) (hh : h ⊆ c a) : Narrows place r c e h (pure a) := by
  intro s b t _ run _ _ _ _
  cases run
  exact ⟨fun n hn exposed => ⟨n, he hn, exposed⟩, fun _ n hn held => ⟨n, hh hn, held⟩,
    fun _ => encloses_refl s, .inl rfl⟩

lemma narrows_fail {error : SyntaxError} {span : Span} :
    Narrows place r c e h (fail error span) := by
  intro s a t _ run
  cases run

lemma narrows_failHere {error : TokenKind → SyntaxError} :
    Narrows place r c e h (failHere error) := by
  intro s a t _ run
  cases run

/-- A node shows what its children expose and, outside its brackets, what they hold. -/
lemma narrows_extended (he : e ⊆ n.children)
    (hh : r ≠ .sealed → n.kind.passesIn ∧ h ⊆ n.children) :
    Narrows place r oneNode e h (extended n) := by
  intro s m t _ run _ _ _ _
  cases run
  refine ⟨fun c hc exposed => ?_, fun seen c hc held => ?_, fun _ => encloses_refl s, .inl rfl⟩
  · exact ⟨_, List.mem_singleton_self _, Node.exposesIn_of_child (he hc) exposed⟩
  · obtain ⟨passes, hh⟩ := hh seen
    exact ⟨_, List.mem_singleton_self _, Node.holdsIn_of_child passes (hh hc) held⟩

lemma narrows_node (he : e ⊆ l) (hh : r ≠ .sealed → kind.passesIn ∧ h ⊆ l) :
    Narrows place r oneNode e h (node kind start l) := narrows_extended he hh

lemma narrows_sealed (he : e ⊆ l) : Narrows place .sealed oneNode e h (node kind start l) :=
  narrows_node he (absurd rfl)

/-- Brackets in which `in` is an operator only where it is one outside. -/
lemma Narrows.enclosed {items : Reader (List Node)} [Regular items] {close : TokenKind}
    {what : Expectation} (hp : Narrows place .deep id [] [] items) (forgets : kind.forgetsIn) :
    Narrows place .sealed oneNode [] []
      (items >>= fun l => expect close what >>= fun _ => node kind start l) := by
  intro s m t here run faults ends allows spells
  obtain ⟨l, u, first, second⟩ := bind_eq_ok run
  obtain ⟨x, v, closed, last⟩ := bind_eq_ok second
  have leads := Regular.leads u m t second faults
  obtain ⟨-, -, -, narrow⟩ :=
    hp s l u here first leads.faults (ends.suffix leads.suffix) allows spells
  refine ⟨nofun, nofun, nofun, ?_⟩
  have rest : Blind (expect close what >>= fun _ => node kind start l) := inferInstance
  cases last
  rcases narrow with same | ⟨n, hn, exposed⟩ | ⟨⟨n, hn, held⟩, -⟩
  · exact .inl ((bind_of_ok same).trans (rest.narrow u _ _ second))
  · exact .inr (.inl ⟨_, List.mem_singleton_self _, Node.exposesIn_of_child hn exposed⟩)
  · exact .inr (.inl ⟨_, List.mem_singleton_self _, Node.exposesIn_of_holdsIn forgets hn held⟩)

end Values

/-! ### Loops -/

section Loops

variable {r : Reach}

lemma narrows_bounded {α : Type} {c : α → List Node} {e h : List Node} {p : Nat → Reader α}
    (hp : ∀ bound, Narrows anywhere r c e h (p bound)) :
    Narrows anywhere r c e h (fun s => p (s.ahead.length + 1) s) := by
  intro s a t here run faults ends allows spells
  obtain ⟨exposes, holds, nested, narrow⟩ := hp _ s a t here run faults ends allows spells
  exact ⟨exposes, holds, nested, narrow⟩

lemma Narrows.repeatedly {turn : Reader Turn} [Regular turn]
    (h : Narrows anywhere r Turn.items [] [] turn) :
    Narrows anywhere r id [] [] (repeatedly turn) := by
  refine narrows_bounded fun bound => ?_
  induction bound with
  | zero => exact fun _ _ _ _ run => nomatch run
  | succ bound ih =>
    unfold repeatedAtMost
    refine @Narrows.bind _ _ _ _ _ _ _ _ _ _ _ ?_ h fun u => ?_
    · intro u
      cases u with
      | last items => exact inferInstanceAs (Regular (pure items))
      | more items =>
        exact inferInstanceAs (Regular (repeatedAtMost turn bound >>= fun l => pure (items ++ l)))
    · cases u with
      | last items => exact narrows_pure (List.Subset.refl _) (List.Subset.refl _)
      | more items =>
        refine ih.bind fun more => narrows_pure ?_ ?_
        · exact List.Subset.refl _
        · exact List.Subset.refl _

lemma Narrows.growing {turn : Node → Reader (Option Node)} [∀ n, Regular (turn n)]
    (h : ∀ n, Narrows anywhere r (fun m => [m.getD n]) [n] [n] (turn n)) (n : Node) :
    Narrows anywhere r oneNode [n] [n] (growing turn n) := by
  refine narrows_bounded (p := fun bound => grownAtMost turn bound n) fun bound => ?_
  induction bound generalizing n with
  | zero => exact fun _ _ _ _ run => nomatch run
  | succ bound ih =>
    unfold grownAtMost
    refine @Narrows.andThen _ _ _ _ _ _ [] [] [n] [n] _ _ _ ?_ (h n) fun m => ?_
    · intro m
      cases m with
      | none => exact inferInstanceAs (Regular (pure n))
      | some m => exact regular_grownAtMost inferInstance bound m
    · cases m with
      | none => exact narrows_pure (List.Subset.refl _) (List.Subset.refl _)
      | some m => exact ih m

lemma listTurn_narrows {close : TokenKind} {holes : Bool} {item : Reader Node} [Regular item]
    (h : Narrows anywhere .deep oneNode [] [] item) :
    Narrows anywhere .deep Turn.items [] [] (listTurn close holes item) := by
  unfold listTurn
  refine .skipLook (fun _ => rfl) fun t => .either (narrows_pure ?_ ?_) (.either ?_ ?_)
  · exact List.nil_subset _
  · exact List.nil_subset _
  · exact .skip nofun fun comma => narrows_pure (List.nil_subset _) (List.nil_subset _)
  · refine h.bind fun n => .skip nofun fun _ => .either (narrows_pure ?_ ?_) (narrows_pure ?_ ?_)
    all_goals exact List.Subset.refl _

lemma Narrows.list {close : TokenKind} {holes : Bool} {item : Reader Node} [Regular item]
    (h : Narrows anywhere .deep oneNode [] [] item) :
    Narrows anywhere .deep id [] [] (list close holes item) := (listTurn_narrows h).repeatedly

end Loops

end Reader

end ModuleLint
