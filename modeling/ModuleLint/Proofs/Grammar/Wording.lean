import ModuleLint.Proofs.Grammar.ForHead
import ModuleLint.Proofs.Grammar.Yield

/-!
Where the texts of names and properties come from.

`Words P p V` says that `p`, which records no fault, reads values with `V` from tokens with `P`. The
rules are those for what readers yield, but a part that follows another has only the tokens that the
other leaves.
-/

namespace ModuleLint

variable {P : Token → Prop}

/-! ### Nodes -/

/-- Nodes whose text is a name: roots of access paths, and the properties that are read. -/
def NodeKind.isWord (kind : NodeKind) : Bool := kind == .name || kind == .getProp

namespace Node

/-- Each name in the tree is left out or spelled by an identifier, and each property that is read is
spelled by a name, where these are tokens with `P`. -/
inductive WordedBy (P : Token → Prop) : Node → Prop
  | mk {n : Node}
    (name : n.kind = .name → n.value = [] ∨ ∃ t, P t ∧ t.kind = .identifier ∧ n.value = t.value)
    (property : n.kind = .getProp → ∃ t, P t ∧ t.kind.isName ∧ n.value = t.value)
    (children : ∀ c ∈ n.children, WordedBy P c) : WordedBy P n

section Nodes

variable {n a b c : Node} {kind : NodeKind} {value : Bytes} {span : Span} {flags : NodeFlags}
  {l : List Node} {t : Token}

lemma WordedBy.name (h : n.WordedBy P) (hk : n.kind = .name) :
    n.value = [] ∨ ∃ t, P t ∧ t.kind = .identifier ∧ n.value = t.value := by
  cases h with
  | mk name => exact name hk

lemma WordedBy.property (h : n.WordedBy P) (hk : n.kind = .getProp) :
    ∃ t, P t ∧ t.kind.isName ∧ n.value = t.value := by
  cases h with
  | mk _ property => exact property hk

lemma WordedBy.child (h : n.WordedBy P) (hc : c ∈ n.children) : c.WordedBy P := by
  cases h with
  | mk _ _ children => exact children c hc

lemma wordedBy_mk (h : kind.isWord = false) (hl : ∀ c ∈ l, c.WordedBy P) :
    WordedBy P ⟨kind, value, span, flags, l⟩ := by
  refine .mk ?_ ?_ hl
  all_goals
    rintro rfl
    cases h

lemma wordedBy_leaf (h : kind.isWord = false) : WordedBy P (leaf kind value span) :=
  wordedBy_mk h (List.forall_mem_nil _)

lemma wordedBy_absent : WordedBy P (of .empty span []) := wordedBy_mk rfl (List.forall_mem_nil _)

/-- A name that is left out. -/
lemma wordedBy_unnamed : WordedBy P (leaf .name [] span) :=
  .mk (fun _ => .inl rfl) nofun (List.forall_mem_nil _)

lemma wordedBy_name (ht : P t) (hk : t.kind = .identifier) (hl : ∀ c ∈ l, c.WordedBy P) :
    WordedBy P ⟨.name, t.value, span, flags, l⟩ :=
  .mk (fun _ => .inr ⟨t, ht, hk, rfl⟩) nofun hl

lemma wordedBy_nameOf (ht : P t) (hk : t.kind = .identifier) : WordedBy P (Reader.nameOf t) :=
  wordedBy_name ht hk (List.forall_mem_nil _)

lemma WordedBy.withSpan (h : n.WordedBy P) (span : Span) : WordedBy P { n with span } := by
  cases h with
  | mk name property children => exact .mk name property children

lemma wordedBy_some (ha : a.WordedBy P) : ∀ n ∈ some a, n.WordedBy P :=
  fun _ hn => Option.some.inj hn ▸ ha

lemma wordedBy_pair (ha : a.WordedBy P) (hb : b.WordedBy P) : ∀ n ∈ [a, b], n.WordedBy P :=
  List.forall_mem_cons.mpr ⟨ha, List.forall_mem_singleton.mpr hb⟩

lemma wordedBy_triple (ha : a.WordedBy P) (hb : b.WordedBy P) (hc : c.WordedBy P) :
    ∀ n ∈ [a, b, c], n.WordedBy P :=
  List.forall_mem_cons.mpr ⟨ha, wordedBy_pair hb hc⟩

end Nodes

end Node

namespace Reader

open Node

/-- From tokens with `P`, and without a fault, the reader reads values with `V`. -/
def Words {α : Type} (P : Token → Prop) (p : Reader α) (V : α → Prop) : Prop :=
  ∀ s a t, p s = .ok a t → t.faults = [] → (∀ x ∈ s.tokens, P x) → V a

section Rules

variable {α β : Type} {p q : Reader α} {f : α → Reader β} {V : α → Prop} {W : β → Prop}

lemma Yields.words (h : Yields p V) : Words P p V := fun s a t run _ _ => h s a t run

lemma words_pure {a : α} (h : V a) : Words P (pure a) V := (yields_pure h).words

lemma words_fail {error : SyntaxError} {span : Span} : Words P (fail error span) V :=
  yields_fail.words

lemma words_failHere {error : TokenKind → SyntaxError} : Words P (failHere error) V :=
  yields_failHere.words

lemma Words.bind [Regular p] [∀ a, Regular (f a)] (hp : Words P p V)
    (hf : ∀ a, V a → Words P (f a) W) : Words P (p >>= f) W := by
  intro s b t run clean tokens
  obtain ⟨a, u, first, second⟩ := bind_eq_ok run
  have behind : u.Leads t := Regular.leads u b t second clean
  have ahead : s.Leads u := Regular.leads s a u first behind.faults
  have left : ∀ x ∈ u.tokens, P x := fun x hx => tokens x (ahead.suffix.subset hx)
  exact hf a (hp s a u first behind.faults tokens) u b t second clean left

/-- The value of the first part does not matter. -/
lemma Words.skip [Regular p] [∀ a, Regular (f a)] (hf : ∀ a, Words P (f a) W) :
    Words P (p >>= f) W :=
  Words.bind (V := fun _ => True) (fun _ _ _ _ _ _ => trivial) fun a _ => hf a

/-- What is read off the state does not matter. -/
lemma Words.skipLook {g : ReaderState → α} (hf : ∀ a, Words P (f a) W) :
    Words P (look g >>= f) W :=
  fun s => hf (g s) s

lemma Words.ite {c : Prop} [Decidable c] (hp : c → Words P p V) (hq : ¬ c → Words P q V) :
    Words P (if c then p else q) V := by
  split
  · exact hp ‹c›
  · exact hq ‹¬ c›

lemma Words.either {c : Prop} [Decidable c] (hp : Words P p V) (hq : Words P q V) :
    Words P (if c then p else q) V :=
  .ite (fun _ => hp) fun _ => hq

lemma Words.withIn (allows : Bool) (h : Words P p V) : Words P (withIn allows p) V := by
  intro s a t run clean tokens
  obtain ⟨u, inner, rfl⟩ := withIn_eq_ok.mp run
  exact h _ a u inner clean tokens

lemma Words.allowingIn (h : Words P p V) : Words P (allowingIn p) V := by
  intro s a t run clean tokens
  obtain ⟨u, inner, rfl⟩ := allowingIn_eq_ok.mp run
  exact h _ a u inner clean tokens

end Rules

/-! ### Tokens -/

section Tokens

variable {α : Type} {p q : Reader α} {V : α → Prop} {first : Token} {kind : TokenKind}

/-- What the reader reads if a certain token is the current one. -/
def WordsAt (P : Token → Prop) (first : Token) (p : Reader α) (V : α → Prop) : Prop :=
  ∀ s a t, s.current = first → p s = .ok a t → t.faults = [] → (∀ x ∈ s.tokens, P x) → V a

lemma Words.at (h : Words P p V) : WordsAt P first p V := fun s a t _ => h s a t

/-- The current token is taken. -/
lemma WordsAt.advance {f : Token → Reader α} [∀ t, Regular (f t)] (h : Words P (f first) V) :
    WordsAt P first (advance >>= f) V := by
  rintro s a t rfl run clean tokens
  obtain ⟨u, v, taken, rest⟩ := bind_eq_ok run
  have behind : v.Leads t := Regular.leads v a t rest clean
  have ahead : s.Leads v := Regular.leads s u v taken behind.faults
  cases taken
  exact h _ a t rest clean fun x hx => tokens x (ahead.suffix.subset hx)

lemma Words.current {f : Token → Reader α} (h : ∀ t, P t → WordsAt P t (f t) V) :
    Words P (current >>= f) V :=
  fun s a t run clean tokens =>
    h s.current (tokens s.current List.mem_cons_self) s a t rfl run clean tokens

lemma Words.isAt (hp : ∀ t, P t → t.kind = kind → WordsAt P t p V) (hq : Words P q V) :
    Words P (isAt kind >>= fun b => if b then p else q) V := by
  intro s a t run clean tokens
  change (if s.current.kind == kind then p else q) s = _ at run
  split at run
  case isTrue here =>
    have first := tokens s.current List.mem_cons_self
    exact hp s.current first (beq_iff_eq.mp here) s a t rfl run clean tokens
  case isFalse => exact hq s a t run clean tokens

lemma words_advance : Words P Reader.advance P := by
  intro s a t run _ tokens
  cases run
  exact tokens s.current List.mem_cons_self

lemma words_expect {what : Expectation} :
    Words P (expect kind what) fun t => P t ∧ t.kind = kind := by
  unfold expect
  refine .isAt (fun t ht hk => ?_) words_failHere
  rintro s a u rfl run - -
  cases run
  exact ⟨ht, hk⟩

end Tokens

/-! ### Nodes and loops -/

section Nodes

variable {n : Node} {V : Node → Prop}

lemma words_extended (h : n.WordedBy P) : Words P (extended n) (WordedBy P) :=
  (yields_extended fun span => h.withSpan span).words

lemma words_node {kind : NodeKind} {start : Span} {l : List Node} (h : kind.isWord = false)
    (hl : ∀ c ∈ l, c.WordedBy P) : Words P (node kind start l) (WordedBy P) :=
  words_extended (wordedBy_mk h hl)

lemma Words.repeatedly {turn : Reader Turn} [Regular turn]
    (h : Words P turn fun u => ∀ n ∈ u.items, V n) :
    Words P (repeatedly turn) fun l => ∀ n ∈ l, V n := by
  have atMost : ∀ bound, Words P (repeatedAtMost turn bound) fun l => ∀ n ∈ l, V n := by
    intro bound
    induction bound with
    | zero => exact yields_stuck.words
    | succ bound ih =>
      unfold repeatedAtMost
      refine @Words.bind _ _ _ _ _ _ _ _ ?_ h fun u hu => ?_
      · intro u
        cases u with
        | last items => exact inferInstanceAs (Regular (pure items))
        | more items =>
          exact inferInstanceAs (Regular (repeatedAtMost turn bound >>= fun l => pure (items ++ l)))
      · cases u with
        | last items => exact words_pure hu
        | more items =>
          exact ih.bind fun more hm => words_pure (List.forall_mem_append.mpr ⟨hu, hm⟩)
  exact fun s => atMost _ s

lemma Words.growing {turn : Node → Reader (Option Node)} [∀ n, Regular (turn n)] (hn : V n)
    (h : ∀ m, V m → Words P (turn m) fun r => ∀ m' ∈ r, V m') : Words P (growing turn n) V := by
  have atMost : ∀ bound m, V m → Words P (grownAtMost turn bound m) V := by
    intro bound
    induction bound with
    | zero => exact fun _ _ => yields_stuck.words
    | succ bound ih =>
      intro m hm
      unfold grownAtMost
      refine @Words.bind _ _ _ _ _ _ _ _ ?_ (h m hm) fun r hr => ?_
      · intro r
        cases r with
        | none => exact inferInstanceAs (Regular (pure m))
        | some m' => exact regular_grownAtMost inferInstance bound m'
      · cases r with
        | none => exact words_pure hm
        | some m' => exact ih m' (hr m' rfl)
  exact fun s => atMost _ n hn s

lemma Words.list {close : TokenKind} {holes : Bool} {item : Reader Node} [Regular item]
    (h : Words P item (WordedBy P)) :
    Words P (list close holes item) fun l => ∀ n ∈ l, n.WordedBy P := by
  refine .repeatedly (.skip fun t => .either (words_pure (List.forall_mem_nil _)) (.either ?_ ?_))
  · exact .skip fun comma => words_pure (List.forall_mem_singleton.mpr wordedBy_absent)
  · refine .bind h fun n hn => .skip fun more => ?_
    exact .either (words_pure (List.forall_mem_singleton.mpr hn))
      (words_pure (List.forall_mem_singleton.mpr hn))

lemma Words.statements {statement : Reader Node} [Regular statement] (ends : List TokenKind)
    (h : Words P statement V) : Words P (statements statement ends) fun l => ∀ n ∈ l, V n := by
  have recovers : Words P (recovering statement) fun l => ∀ n ∈ l, V n := by
    intro s l t run clean tokens
    obtain ⟨n, rfl, single⟩ := Grammar.recovering_clean run clean
    exact List.forall_mem_singleton.mpr (h s n t single clean tokens)
  refine .repeatedly (.skip fun _ => .either (words_pure (List.forall_mem_nil _)) ?_)
  exact .bind recovers fun l hl => words_pure hl

end Nodes

end Reader

end ModuleLint
