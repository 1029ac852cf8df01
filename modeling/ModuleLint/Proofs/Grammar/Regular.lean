import Mathlib.Tactic.Common
import ModuleLint.Grammar.Script
import ModuleLint.Proofs.Grammar.Closing

/-!
Readers that do not depend on what went wrong before, or on what comes behind.

No reader looks at the faults that are recorded or removes any, and where `in` is an operator at the
start it is one at the end, even if the end is a fault. A reader that stops before the last token
does so, too, where a closing parenthesis stands in the place of the end. All this is seen from how
a reader is put together, so it is found by instance search.
-/

namespace ModuleLint

/-- The state with faults recorded before its own. -/
def ReaderState.recording (l : List SyntaxFault) (s : ReaderState) : ReaderState :=
  { s with faults := l ++ s.faults }

/-- The reply with faults recorded before its own. -/
def Reply.recording {α : Type} (l : List SyntaxFault) : Reply α → Reply α
  | .ok a t => .ok a (t.recording l)
  | .fault f t => .fault f (t.recording l)
  | .stuck => .stuck

/-- Where a reader ends `in` is an operator. -/
def Reply.AllowsIn {α : Type} : Reply α → Prop
  | .ok _ t => t.allowsIn = true
  | .fault _ t => t.allowsIn = true
  | .stuck => True

namespace Reader

/-- The reader does not look at recorded faults and removes none, and leaves `in` an operator. What
it reads in front of a covered token it also reads if the tokens end otherwise. -/
class Regular {α : Type} (p : Reader α) : Prop where
  recording : ∀ l s, p (s.recording l) = (p s).recording l
  allowsIn : ∀ s, s.allowsIn = true → (p s).AllowsIn
  leads : ∀ s a t, p s = .ok a t → t.faults = [] → s.Leads t
  covered : ∀ s a t s', p s = .ok a t → t.faults = [] → Covered t.tokens → s.Closed s' →
    ∃ t', p s' = .ok a t' ∧ t.Closed t'

variable {α β : Type}

/-! ### Parts -/

section Parts

/-- Faults that are recorded are not seen. -/
lemma alike_recording (l : List SyntaxFault) (s : ReaderState) : s.Alike (s.recording l) :=
  ⟨rfl, rfl, rfl, .inl rfl, rfl, rfl⟩

lemma regular_lookCovered {g : ReaderState → α} (h : ∀ l s, g (s.recording l) = g s)
    (h' : ∀ s s', s.Closed s' → Covered s.tokens → g s' = g s) : Regular (look g) where
  recording l s := congrArg (Reply.ok · (s.recording l)) (h l s)
  allowsIn s h := h
  leads s a t run faults := by
    cases run
    exact .refl faults
  covered s a t s' run _ covers closed := by
    cases run
    exact ⟨s', congrArg (Reply.ok · s') (h' s s' closed covers), closed⟩

lemma regular_look {g : ReaderState → α} (h : ∀ s s', s.Alike s' → g s' = g s) :
    Regular (look g) :=
  regular_lookCovered (fun l s => h s _ (alike_recording l s))
    fun s s' closed covers => h s s' (closed.alike (closed.inside covers))

lemma regular_lookCurrent (o : Token → α) : Regular (look fun s => o s.current) :=
  regular_look fun _ _ alike => congrArg o alike.current

instance (a : α) : Regular (pure a : Reader α) := regular_look fun _ _ _ => rfl

instance : Regular (fun _ => .stuck : Reader α) :=
  ⟨fun _ _ => rfl, fun _ _ => trivial, fun _ _ _ run => (nomatch run),
    fun _ _ _ _ run => (nomatch run)⟩

instance (error : SyntaxError) (span : Span) : Regular (fail error span : Reader α) :=
  ⟨fun _ _ => rfl, fun _ h => h, fun _ _ _ run => (nomatch run),
    fun _ _ _ _ run => (nomatch run)⟩

instance (error : TokenKind → SyntaxError) : Regular (failHere error : Reader α) :=
  ⟨fun _ _ => rfl, fun _ h => h, fun _ _ _ run => (nomatch run),
    fun _ _ _ _ run => (nomatch run)⟩

instance : Regular current := regular_lookCurrent id

instance : Regular here := regular_lookCurrent (·.span)

instance (kind : TokenKind) : Regular (isAt kind) := regular_lookCurrent (·.kind == kind)

instance (kinds : List TokenKind) : Regular (isAtAny kinds) :=
  regular_lookCurrent (kinds.contains ·.kind)

instance (n : Node) : Regular (extended n) :=
  regular_look fun _ _ alike => by rw [alike.previous]

instance (kind : NodeKind) (start : Span) (l : List Node) : Regular (node kind start l) :=
  inferInstanceAs (Regular (extended _))

lemma step_recording (l : List SyntaxFault) (s : ReaderState) :
    step (s.recording l) = (step s).recording l := by
  obtain ⟨previous, current, ahead, faults, allowsIn, omitted⟩ := s
  by_cases h : current.kind = .eof
  · simp [step, ReaderState.recording, h]
  · cases ahead <;> simp [step, ReaderState.recording, h]

lemma allowsIn_step (s : ReaderState) : (step s).allowsIn = s.allowsIn := by
  unfold step
  split
  · rfl
  · split <;> rfl

instance : Regular advance where
  recording l s := congrArg (Reply.ok s.current) (step_recording l s)
  allowsIn s h := (allowsIn_step s).trans h
  leads s a t run faults := by
    cases run
    exact Edit.step_leads (faults_step s ▸ faults)
  covered s a t s' run _ covers closed := by
    cases run
    have inside : s.current.kind ≠ .eof := by
      by_contra ends
      rw [step_atEnd ends] at covers
      exact closed.inside covers ends
    refine ⟨step s', ?_, closed.step inside⟩
    exact congrArg (Reply.ok · (step s')) (closed.behind inside).1

instance : Regular omitSemicolon where
  recording _ _ := rfl
  allowsIn _ h := h
  leads s a t run faults := by
    cases run
    exact ⟨faults, List.prefix_append _ _, List.suffix_rfl, rfl⟩
  covered s a t s' run _ _ closed := by
    cases run
    exact ⟨_, rfl, closed.tokens, closed.previous, closed.allowsIn, closed.faults⟩

end Parts

/-! ### Rules -/

section Rules

variable {p q : Reader α} {f : α → Reader β}

lemma Regular.bind (hp : Regular p) (hf : ∀ a, Regular (f a)) : Regular (p >>= f) where
  recording l s := by
    have first := hp.recording l s
    cases hr : p s with
    | ok a t =>
      rw [hr] at first
      rw [bind_of_ok hr, bind_of_ok first]
      exact (hf a).recording l t
    | fault fault t =>
      rw [hr] at first
      rw [bind_of_fault hr, bind_of_fault first]
      rfl
    | stuck =>
      rw [hr] at first
      rw [bind_of_stuck hr, bind_of_stuck first]
      rfl
  allowsIn s h := by
    have first := hp.allowsIn s h
    cases hr : p s with
    | ok a t =>
      rw [hr] at first
      rw [bind_of_ok hr]
      exact (hf a).allowsIn t first
    | fault fault t =>
      rw [hr] at first
      rw [bind_of_fault hr]
      exact first
    | stuck =>
      rw [bind_of_stuck hr]
      trivial
  leads s b t run faults := by
    obtain ⟨a, u, first, second⟩ := bind_eq_ok run
    have leads := (hf a).leads u b t second faults
    exact (hp.leads s a u first leads.faults).trans leads
  covered s b t s' run faults covers closed := by
    obtain ⟨a, u, first, second⟩ := bind_eq_ok run
    have leads := (hf a).leads u b t second faults
    obtain ⟨u', first', closed'⟩ :=
      hp.covered s a u s' first leads.faults (covers.suffix leads.suffix) closed
    obtain ⟨t', second', closed''⟩ := (hf a).covered u b t u' second faults covers closed'
    exact ⟨t', (bind_of_ok first').trans second', closed''⟩

instance [Regular p] [∀ a, Regular (f a)] : Regular (p >>= f) := .bind inferInstance inferInstance

lemma Regular.either {c : Prop} [Decidable c] (hp : Regular p) (hq : Regular q) :
    Regular (if c then p else q) := by
  split
  · exact hp
  · exact hq

instance {c : Prop} [Decidable c] [Regular p] [Regular q] : Regular (if c then p else q) :=
  .either inferInstance inferInstance

/-- What was the case before is so again, be it after a fault. -/
lemma Regular.withIn (allows : Bool) (hp : Regular p) : Regular (withIn allows p) where
  recording l s := by
    have inner := hp.recording l { s with allowsIn := allows }
    unfold Reader.withIn
    change (match p (ReaderState.recording l { s with allowsIn := allows }) with
      | .ok value t => _ | .fault fault t => _ | .stuck => _) = _
    rw [inner]
    cases p { s with allowsIn := allows } <;> rfl
  allowsIn s h := by
    unfold Reader.withIn
    cases p { s with allowsIn := allows } with
    | ok a t => exact h
    | fault fault t => exact h
    | stuck => trivial
  leads s a t run faults := by
    obtain ⟨u, inner, rfl⟩ := withIn_eq_ok.mp run
    have leads := hp.leads _ a u inner faults
    exact ⟨leads.faults, leads.omitted, leads.tokens, rfl⟩
  covered s a t s' run faults covers closed := by
    obtain ⟨u, inner, rfl⟩ := withIn_eq_ok.mp run
    obtain ⟨u', inner', closed'⟩ := hp.covered _ a u { s' with allowsIn := allows } inner faults
      covers ⟨closed.tokens, closed.previous, rfl, closed.faults⟩
    exact ⟨_, withIn_eq_ok.mpr ⟨u', inner', rfl⟩, closed'.tokens, closed'.previous,
      closed.allowsIn, closed'.faults⟩

instance (allows : Bool) [Regular p] : Regular (withIn allows p) := .withIn allows inferInstance

/-- Also after a fault `in` is an operator. -/
instance [hp : Regular p] : Regular (allowingIn p) where
  recording l s := by
    have inner := hp.recording l { s with allowsIn := true }
    change ((p >>= fun value => setAllowsIn s.allowsIn >>= fun _ => pure value)
      (ReaderState.recording l { s with allowsIn := true })) = Reply.recording l
        ((p >>= fun value => setAllowsIn s.allowsIn >>= fun _ => pure value)
          { s with allowsIn := true })
    cases hr : p { s with allowsIn := true } with
    | ok a t =>
      rw [hr] at inner
      rw [bind_of_ok hr, bind_of_ok inner]
      rfl
    | fault fault t =>
      rw [hr] at inner
      rw [bind_of_fault hr, bind_of_fault inner]
      rfl
    | stuck =>
      rw [hr] at inner
      rw [bind_of_stuck hr, bind_of_stuck inner]
      rfl
  allowsIn s h := by
    have inner := hp.allowsIn { s with allowsIn := true } rfl
    rw [allowingIn_eq]
    cases hr : p { s with allowsIn := true } with
    | ok a t =>
      rw [bind_of_ok hr]
      exact h
    | fault fault t =>
      rw [hr] at inner
      rw [bind_of_fault hr]
      exact inner
    | stuck =>
      rw [bind_of_stuck hr]
      trivial
  leads s a t run faults := by
    obtain ⟨u, inner, rfl⟩ := allowingIn_eq_ok.mp run
    have leads := hp.leads _ a u inner faults
    exact ⟨leads.faults, leads.omitted, leads.tokens, rfl⟩
  covered s a t s' run faults covers closed := by
    obtain ⟨u, inner, rfl⟩ := allowingIn_eq_ok.mp run
    obtain ⟨u', inner', closed'⟩ := hp.covered _ a u { s' with allowsIn := true } inner faults
      covers ⟨closed.tokens, closed.previous, rfl, closed.faults⟩
    exact ⟨_, allowingIn_eq_ok.mpr ⟨u', inner', rfl⟩, closed'.tokens, closed'.previous,
      closed.allowsIn, closed'.faults⟩

end Rules

/-! ### Loops -/

section Loops

/-- More turns than are needed do no harm. -/
lemma repeatedAtMost_longer {turn : Reader Turn} {bound bound' : Nat} {s t : ReaderState}
    {l : List Node} (le : bound ≤ bound') (run : repeatedAtMost turn bound s = .ok l t) :
    repeatedAtMost turn bound' s = .ok l t := by
  induction bound generalizing bound' s t l with
  | zero => cases run
  | succ bound ih =>
    obtain ⟨bound', rfl⟩ := Nat.exists_eq_add_of_le' (Nat.le_trans (Nat.le_add_left 1 bound) le)
    obtain ⟨u, v, first, second⟩ := bind_eq_ok run
    refine (bind_of_ok first).trans ?_
    cases u with
    | last items => exact second
    | more items =>
      obtain ⟨more, w, behind, last⟩ := bind_eq_ok second
      have again := ih (Nat.le_of_succ_le_succ le) behind
      exact (bind_of_ok again).trans last

lemma grownAtMost_longer {turn : Node → Reader (Option Node)} {bound bound' : Nat}
    {s t : ReaderState} {n m : Node} (le : bound ≤ bound')
    (run : grownAtMost turn bound n s = .ok m t) : grownAtMost turn bound' n s = .ok m t := by
  induction bound generalizing bound' s n with
  | zero => cases run
  | succ bound ih =>
    obtain ⟨bound', rfl⟩ := Nat.exists_eq_add_of_le' (Nat.le_trans (Nat.le_add_left 1 bound) le)
    obtain ⟨r, v, first, second⟩ := bind_eq_ok run
    refine (bind_of_ok first).trans ?_
    cases r with
    | none => exact second
    | some grown => exact ih (Nat.le_of_succ_le_succ le) second

lemma regular_bounded {p : Nat → Reader α} (h : ∀ n, Regular (p n))
    (longer : ∀ {n m s a t}, n ≤ m → p n s = .ok a t → p m s = .ok a t) :
    Regular (fun s => p (s.ahead.length + 1) s) where
  recording l s := (h _).recording l s
  allowsIn s hs := (h _).allowsIn s hs
  leads s := (h _).leads s
  covered s a t s' run faults covers closed := by
    obtain ⟨t', run', closed'⟩ := (h _).covered s a t s' run faults covers closed
    exact ⟨t', longer (Nat.succ_le_succ closed.ahead_le) run', closed'⟩

instance {turn : Reader Turn} [Regular turn] (bound : Nat) :
    Regular (repeatedAtMost turn bound) := by
  induction bound with
  | zero => exact inferInstanceAs (Regular fun _ => .stuck)
  | succ bound ih =>
    refine .bind inferInstance fun u => ?_
    cases u with
    | last items => exact inferInstanceAs (Regular (pure items))
    | more items => exact .bind ih fun more => inferInstanceAs (Regular (pure (items ++ more)))

instance {turn : Reader Turn} [Regular turn] : Regular (repeatedly turn) :=
  regular_bounded (fun _ => inferInstance) repeatedAtMost_longer

lemma regular_grownAtMost {turn : Node → Reader (Option Node)} (h : ∀ n, Regular (turn n))
    (bound : Nat) (n : Node) : Regular (grownAtMost turn bound n) := by
  induction bound generalizing n with
  | zero => exact inferInstanceAs (Regular fun _ => .stuck)
  | succ bound ih =>
    refine .bind (h n) fun r => ?_
    cases r with
    | none => exact inferInstanceAs (Regular (pure n))
    | some m => exact ih m

instance {turn : Node → Reader (Option Node)} [h : ∀ n, Regular (turn n)] (n : Node) :
    Regular (growing turn n) :=
  regular_bounded (fun bound => regular_grownAtMost h bound n) grownAtMost_longer

lemma skipAhead_recording (l : List SyntaxFault) (bound : Nat) (s : ReaderState) :
    skipAhead bound (s.recording l) = (skipAhead bound s).recording l := by
  induction bound generalizing s with
  | zero => rfl
  | succ bound ih =>
    have next := ih (step s)
    rw [← step_recording] at next
    unfold skipAhead
    change (if s.current.kind = .eof ∨ s.previous.kind = .semi ∨ startsStatement s.current.kind ∨
        s.current.kind = .rbrace ∨ s.current.newlineBefore then _ else _) = _
    split
    · rfl
    · exact next

lemma allowsIn_skipAhead (bound : Nat) (s : ReaderState) :
    (skipAhead bound s).allowsIn = s.allowsIn := by
  induction bound generalizing s with
  | zero => rfl
  | succ bound ih =>
    unfold skipAhead
    split
    · rfl
    · exact (ih (step s)).trans (allowsIn_step s)

instance {p : Reader Node} [hp : Regular p] : Regular (recovering p) where
  recording l s := by
    have first := hp.recording l s
    unfold recovering
    rw [first]
    cases p s with
    | ok n t => rfl
    | stuck => rfl
    | fault fault t =>
      have faults : { t.recording l with faults := (t.recording l).faults ++ [fault] } =
          ReaderState.recording l { t with faults := t.faults ++ [fault] } := by
        simp [ReaderState.recording]
      have skipped (u : ReaderState) :
          toNextStatement (u.recording l) = (toNextStatement u).recording l := by
        unfold toNextStatement
        rw [step_recording]
        exact skipAhead_recording l _ _
      change Reply.ok [] _ = Reply.ok [] _
      rw [faults, skipped]
  allowsIn s h := by
    have first := hp.allowsIn s h
    unfold recovering
    cases hr : p s with
    | ok n t =>
      rw [hr] at first
      exact first
    | stuck => trivial
    | fault fault t =>
      rw [hr] at first
      exact (allowsIn_skipAhead _ _).trans ((allowsIn_step _).trans first)
  leads s l t run faults := by
    unfold recovering at run
    cases hr : p s with
    | ok n u =>
      rw [hr] at run
      cases run
      exact hp.leads s n _ hr faults
    | stuck =>
      rw [hr] at run
      cases run
    | fault fault u =>
      rw [hr] at run
      cases run
      rw [toNextStatement, faults_skipAhead, faults_step] at faults
      exact absurd faults (List.append_ne_nil_of_right_ne_nil _ (List.cons_ne_nil _ _))
  covered s l t s' run faults covers closed := by
    unfold recovering at run
    cases hr : p s with
    | ok n u =>
      rw [hr] at run
      cases run
      obtain ⟨t', run', closed'⟩ := hp.covered s n _ s' hr faults covers closed
      refine ⟨t', ?_, closed'⟩
      rw [recovering, run']
    | stuck =>
      rw [hr] at run
      cases run
    | fault fault u =>
      rw [hr] at run
      cases run
      rw [toNextStatement, faults_skipAhead, faults_step] at faults
      exact absurd faults (List.append_ne_nil_of_right_ne_nil _ (List.cons_ne_nil _ _))

end Loops

/-! ### Tokens and lists -/

instance (kind : TokenKind) : Regular (accept kind) := by
  unfold accept
  infer_instance

instance (kind : TokenKind) (what : Expectation) : Regular (expect kind what) := by
  unfold expect
  infer_instance

instance : Regular semicolon := by
  unfold semicolon
  infer_instance

instance (word : Bytes) (applies : Token → Bool) : Regular (acceptWord word applies) := by
  have look : Regular (look fun s => isWord word s.current && applies (nextToken s)) :=
    regular_lookCovered (fun _ _ => rfl) fun _ _ closed covers => closed.word covers word applies
  unfold acceptWord
  infer_instance

instance (close : TokenKind) (holes : Bool) (item : Reader Node) [Regular item] :
    Regular (listTurn close holes item) := by
  unfold listTurn
  infer_instance

instance (close : TokenKind) (holes : Bool) (item : Reader Node) [Regular item] :
    Regular (list close holes item) := by
  unfold list
  infer_instance

instance (statement : Reader Node) (ends : List TokenKind) [Regular statement] :
    Regular (statementTurn statement ends) := by
  unfold statementTurn
  infer_instance

instance (statement : Reader Node) (ends : List TokenKind) [Regular statement] :
    Regular (statements statement ends) := by
  unfold statements
  infer_instance

end Reader

namespace Grammar

open Reader

/-! ### Tests -/

instance : Regular (look (·.current.kind.isAssignmentOperator)) :=
  regular_lookCurrent (·.kind.isAssignmentOperator)

instance : Regular (look fun s => s.current.kind == .kwIn || isWord (ascii "of") s.current) :=
  regular_lookCurrent fun t => t.kind == .kwIn || isWord (ascii "of") t

instance : Regular (look fun s => s.current.newlineBefore || s.current.kind == .eof) :=
  regular_lookCurrent fun t => t.newlineBefore || t.kind == .eof

instance : Regular (look isAsyncFunction) := regular_look fun _ _ alike => alike.isAsyncFunction

instance : Regular (look isArrow) := regular_look fun _ _ alike => alike.arrow

instance : Regular (look isAsyncArrow) := regular_look fun _ _ alike => alike.isAsyncArrow

section Readers

variable {readers : Readers} [∀ nt, Regular (readers nt)]

/-! ### Patterns -/

instance : Regular propertyKey := by
  unfold propertyKey
  infer_instance

instance : Regular (computedKey readers) := by
  unfold computedKey
  infer_instance

instance (start : Span) : Regular (objectRest start) := by
  unfold objectRest
  infer_instance

instance (start : Span) : Regular (computedEntry readers start) := by
  unfold computedEntry
  infer_instance

instance (start : Span) (key : Token) : Regular (entryValue readers start key) := by
  unfold entryValue
  infer_instance

instance : Regular (objectEntry readers) := by
  unfold objectEntry
  infer_instance

instance : Regular (objectPattern readers) := by
  unfold objectPattern
  infer_instance

instance : Regular (restElement readers) := by
  unfold restElement
  infer_instance

instance : Regular (listElement readers) := by
  unfold listElement
  infer_instance

instance : Regular (arrayPattern readers) := by
  unfold arrayPattern
  infer_instance

instance : Regular (pattern readers) := by
  unfold pattern
  infer_instance

instance : Regular (bindingTarget readers) := by
  unfold bindingTarget
  infer_instance

instance : Regular (bindingElement readers) := by
  unfold bindingElement
  infer_instance

/-! ### Accesses -/

instance : Regular (spread readers) := by
  unfold spread
  infer_instance

instance : Regular (spreadable readers) := by
  unfold spreadable
  infer_instance

instance : Regular (arguments readers) := by
  unfold arguments
  infer_instance

instance (object : Node) : Regular (property object) := by
  unfold property
  infer_instance

instance (object : Node) : Regular (index readers object) := by
  unfold index
  infer_instance

instance (allowCall : Bool) (operand : Node) : Regular (access readers allowCall operand) := by
  unfold access
  infer_instance

instance (allowCall : Bool) (operand : Node) : Regular (accesses readers allowCall operand) := by
  unfold accesses
  infer_instance

/-! ### Functions -/

instance : Regular (block readers) := by
  unfold block
  infer_instance

instance : Regular (parameters readers) := by
  unfold parameters
  infer_instance

instance (start : Span) (flags : NodeFlags) (name : Node) :
    Regular (functionRest readers start flags name) := by
  unfold functionRest
  infer_instance

instance (start : Span) (flags : NodeFlags) : Regular (method readers start flags) := by
  unfold method
  infer_instance

instance (isExpression : Bool) : Regular (functionName isExpression) := by
  unfold functionName
  infer_instance

instance (isExpression : Bool) (flags : NodeFlags) :
    Regular (function readers isExpression flags) := by
  unfold function
  infer_instance

instance : Regular (arrowParameters readers) := by
  unfold arrowParameters
  infer_instance

instance : Regular (arrowBody readers) := by
  unfold arrowBody
  infer_instance

instance (isAsync : Bool) : Regular (arrowFunction readers isAsync) := by
  unfold arrowFunction
  infer_instance

/-! ### Literals -/

instance : Regular (arrayLiteral readers) := by
  unfold arrayLiteral
  infer_instance

instance (flags : NodeFlags) (applies : Token → Bool) : Regular (modifiers flags applies) := by
  unfold modifiers
  infer_instance

instance (start : Span) (flags : NodeFlags) : Regular (computedProperty readers start flags) := by
  unfold computedProperty
  infer_instance

instance (start : Span) (flags : NodeFlags) (key : Token) :
    Regular (memberFunction readers start flags key) := by
  unfold memberFunction
  infer_instance

instance (start : Span) (key : Token) : Regular (keyedValue readers start key) := by
  unfold keyedValue
  infer_instance

instance : Regular (keyedProperty readers) := by
  unfold keyedProperty
  infer_instance

instance : Regular (objectProperty readers) := by
  unfold objectProperty
  infer_instance

instance : Regular (objectLiteral readers) := by
  unfold objectLiteral
  infer_instance

/-! ### Classes -/

instance : Regular (fieldValue readers) := by
  unfold fieldValue
  infer_instance

instance (start : Span) (flags : NodeFlags) (name : Bytes) :
    Regular (field readers start flags name) := by
  unfold field
  infer_instance

instance (start : Span) (flags : NodeFlags) : Regular (unnamedMember readers start flags) := by
  unfold unnamedMember
  infer_instance

instance (start : Span) (flags : NodeFlags) : Regular (computedMember readers start flags) := by
  unfold computedMember
  infer_instance

instance (start : Span) (flags : NodeFlags) : Regular (namedMember readers start flags) := by
  unfold namedMember
  infer_instance

instance : Regular (classMember readers) := by
  unfold classMember
  refine .bind (regular_look fun _ _ alike => ?_) fun _ => inferInstance
  rw [alike.current, alike.nextKind (by decide) (by decide)]

instance : Regular (memberTurn readers) := by
  unfold memberTurn
  infer_instance

instance (isExpression : Bool) : Regular (className isExpression) := by
  unfold className
  infer_instance

instance : Regular (heritage readers) := by
  unfold heritage
  infer_instance

instance : Regular (classBody readers) := by
  unfold classBody
  infer_instance

instance (isExpression : Bool) : Regular (classDefinition readers isExpression) := by
  unfold classDefinition
  infer_instance

/-! ### Expressions -/

instance : Regular (parenthesized readers) := by
  unfold parenthesized
  infer_instance

instance (kind : NodeKind) (keepsValue : Bool) : Regular (literal kind keepsValue) := by
  unfold literal
  infer_instance

instance (isExpression : Bool) : Regular (asyncFunction readers isExpression) := by
  unfold asyncFunction
  infer_instance

instance : Regular (primary readers) := by
  unfold primary
  refine .bind inferInstance fun _ => .either inferInstance (.bind inferInstance fun t => ?_)
  split
  · infer_instance
  · split <;> infer_instance

instance : Regular (created readers) := by
  unfold created
  infer_instance

instance : Regular (createdArguments readers) := by
  unfold createdArguments
  infer_instance

instance : Regular (newExpression readers) := by
  unfold newExpression
  infer_instance

instance (start : Span) (operand : Node) : Regular (afterOperand start operand) := by
  unfold afterOperand
  infer_instance

instance : Regular (operandBase readers) := by
  unfold operandBase
  infer_instance

instance : Regular (operand readers) := by
  unfold operand
  infer_instance

instance : Regular (unary readers) := by
  unfold unary
  infer_instance

instance (start : Span) (floor : Nat) (left : Node) :
    Regular (binaryTurn readers start floor left) := by
  unfold binaryTurn
  refine .bind (regular_look fun s s' alike => ?_) fun _ => inferInstance
  rw [alike.allowsIn, alike.current]

instance (floor : Nat) : Regular (binary readers floor) := by
  unfold binary
  infer_instance

instance : Regular (conditional readers) := by
  unfold conditional
  infer_instance

instance (start : Span) (target : Node) : Regular (assignmentRest readers start target) := by
  unfold assignmentRest
  infer_instance

instance : Regular (assignment readers) := by
  unfold assignment
  infer_instance

instance (start : Span) (left : Node) : Regular (commaTurn readers start left) := by
  unfold commaTurn
  infer_instance

instance : Regular (expression readers) := by
  unfold expression
  infer_instance

/-! ### Statements -/

instance : Regular (initializer readers) := by
  unfold initializer
  infer_instance

instance : Regular (declarator readers) := by
  unfold declarator
  infer_instance

instance : Regular (declaratorTurn readers) := by
  unfold declaratorTurn
  infer_instance

instance (kind : NodeKind) : Regular (declaration readers kind) := by
  unfold declaration
  infer_instance

instance (kind : NodeKind) : Regular (declarationStatement readers kind) := by
  unfold declarationStatement
  infer_instance

instance (opening : Expectation) : Regular (condition readers opening) := by
  unfold condition
  infer_instance

instance : Regular (elseBranch readers) := by
  unfold elseBranch
  infer_instance

instance : Regular (ifStatement readers) := by
  unfold ifStatement
  infer_instance

instance : Regular (whileStatement readers) := by
  unfold whileStatement
  infer_instance

instance : Regular (doWhileStatement readers) := by
  unfold doWhileStatement
  infer_instance

instance : Regular absent := by
  unfold absent
  infer_instance

instance : Regular (forStart readers) := by
  unfold forStart
  refine .withIn false (.bind inferInstance fun t => ?_)
  split <;> infer_instance

instance : Regular (forBody readers) := by
  unfold forBody
  infer_instance

instance (close : TokenKind) : Regular (forPart readers close) := by
  unfold forPart
  infer_instance

instance (isIn : Bool) : Regular (forSubject readers isIn) := by
  unfold forSubject
  infer_instance

instance (start : Span) (target : Node) : Regular (forEach readers start target) := by
  unfold forEach
  infer_instance

instance (start : Span) (init : Node) : Regular (forClassic readers start init) := by
  unfold forClassic
  infer_instance

instance : Regular (forStatement readers) := by
  unfold forStatement
  infer_instance

instance : Regular (clauseLabel readers) := by
  unfold clauseLabel
  infer_instance

instance : Regular (clause readers) := by
  unfold clause
  infer_instance

instance : Regular (clauseTurn readers) := by
  unfold clauseTurn
  infer_instance

instance : Regular (switchStatement readers) := by
  unfold switchStatement
  refine .bind inferInstance fun keyword => .bind inferInstance fun _ => ?_
  infer_instance

instance : Regular (catchParameter readers) := by
  unfold catchParameter
  infer_instance

instance : Regular (catchClause readers) := by
  unfold catchClause
  infer_instance

instance (isThere : Bool) : Regular (handler readers isThere) := by
  unfold handler
  infer_instance

instance : Regular (finalizer readers) := by
  unfold finalizer
  infer_instance

instance : Regular (tryStatement readers) := by
  unfold tryStatement
  infer_instance

instance : Regular (returnValue readers) := by
  unfold returnValue
  exact .bind (regular_lookCurrent endsStatement) fun _ => inferInstance

instance : Regular (returnStatement readers) := by
  unfold returnStatement
  infer_instance

instance : Regular (throwStatement readers) := by
  unfold throwStatement
  infer_instance

instance : Regular jumpLabel := by
  unfold jumpLabel
  infer_instance

instance (kind : NodeKind) : Regular (jump kind) := by
  unfold jump
  infer_instance

instance : Regular (labeled readers) := by
  unfold labeled
  infer_instance

instance : Regular (expressionStatement readers) := by
  unfold expressionStatement
  infer_instance

instance : Regular emptyStatement := by
  unfold emptyStatement
  infer_instance

instance : Regular (wordStatement readers) := by
  have isLabel : Regular (look fun s => (nextToken s).kind == .colon) :=
    regular_look fun _ _ alike => alike.nextKind (by decide) (by decide)
  unfold wordStatement
  infer_instance

instance : Regular (statement readers) := by
  unfold statement
  refine .bind inferInstance fun t => ?_
  split <;> infer_instance

/-! ### The recursion -/

instance (nt : Nonterminal) : Regular (production readers nt) := by
  cases nt <;> unfold production <;> infer_instance

end Readers

instance (depth : Nat) (nt : Nonterminal) : Regular (read depth nt) := by
  induction depth generalizing nt with
  | zero => exact inferInstanceAs (Regular fun _ => .stuck)
  | succ depth ih => exact inferInstanceAs (Regular (production (read depth) nt))

end Grammar

end ModuleLint
