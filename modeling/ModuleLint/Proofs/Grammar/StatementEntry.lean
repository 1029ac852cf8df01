import ModuleLint.Proofs.Grammar.Mode
import ModuleLint.Proofs.Grammar.ScriptProgress

/-!
Where statements are read, `in` is an operator.

The first part of a `for` head is the only place where it is none, and no statement is read from
there but in the body of a function, where it is one again. What is read there may end with a fault
anywhere; the statement that follows is still read with the operator.
-/

namespace ModuleLint.Grammar

open Reader

/-! ### Where statements are read -/

/-- The readers with one for statements that gives a reply of its own at a place. -/
def answeringAt (place : ReaderState) (reply : Reply Node) (readers : Readers) : Readers
  | .statement => fun s => if s = place then reply else readers .statement s
  | nt => readers nt

/-- `read`, where a statement at a place has a reply of its own. -/
def readAnswering (place : ReaderState) (reply : Reply Node) : Nat → Readers
  | 0 => fun _ _ => .stuck
  | depth + 1 => answeringAt place reply (production (readAnswering place reply depth))

/-- `scriptReader` with any readers. -/
def scriptWith (readers : Readers) (name : Bytes) : Reader Node := do
  let start ← here
  let body ← statements (readers .statement) []
  return ⟨.script, name, start.merge (← here), {}, body⟩

/-- A statement is read at a place on the way through some tokens: the reply there has a say in what
is read in the end. -/
def EntersStatement (name : Bytes) (first : Token) (rest : List Token) (place : ReaderState) :
    Prop :=
  ∃ reply, scriptWith (readAnswering place reply (rest.length + 2)) name (start first rest) ≠
    scriptReader (rest.length + 2) name (start first rest)

/-- The readers of expressions, patterns, functions and classes. -/
inductive IsPhrase (readers : Readers) : ∀ {α : Type}, Reader α → Prop
  | expression : IsPhrase readers (expression readers)
  | assignment : IsPhrase readers (assignment readers)
  | conditional : IsPhrase readers (conditional readers)
  | binary (floor : Nat) : IsPhrase readers (binary readers floor)
  | unary : IsPhrase readers (unary readers)
  | operand : IsPhrase readers (operand readers)
  | accesses (allowCall : Bool) (base : Node) : IsPhrase readers (accesses readers allowCall base)
  | newExpression : IsPhrase readers (newExpression readers)
  | arguments : IsPhrase readers (arguments readers)
  | primary : IsPhrase readers (primary readers)
  | arrayLiteral : IsPhrase readers (arrayLiteral readers)
  | objectLiteral : IsPhrase readers (objectLiteral readers)
  | objectProperty : IsPhrase readers (objectProperty readers)
  | propertyKey : IsPhrase readers propertyKey
  | bindingTarget : IsPhrase readers (bindingTarget readers)
  | bindingElement : IsPhrase readers (bindingElement readers)
  | objectPattern : IsPhrase readers (objectPattern readers)
  | arrayPattern : IsPhrase readers (arrayPattern readers)
  | function (isExpression : Bool) (flags : NodeFlags) :
      IsPhrase readers (function readers isExpression flags)
  | method (start : Span) (flags : NodeFlags) : IsPhrase readers (method readers start flags)
  | parameters : IsPhrase readers (parameters readers)
  | arrowFunction (isAsync : Bool) : IsPhrase readers (arrowFunction readers isAsync)
  | classDefinition (isExpression : Bool) :
      IsPhrase readers (classDefinition readers isExpression)
  | classMember : IsPhrase readers (classMember readers)
  | field (start : Span) (flags : NodeFlags) (name : Bytes) :
      IsPhrase readers (field readers start flags name)

section Entries

variable {place : ReaderState} {readers readers' : Readers}

/-- A reply where `in` is no operator is no difference that counts. -/
lemma keepReaders_answeringAt (hidden : place.allowsIn = false) (reply : Reply Node)
    (h : KeepReaders readers readers') :
    KeepReaders readers (answeringAt place reply readers') where
  phrase nt phrase := by
    cases nt with
    | statement => cases phrase
    | _ => exact h.phrase _ phrase
  statement := by
    refine ⟨h.statement.keeps, fun s hs => ?_⟩
    have elsewhere : s ≠ place := by
      rintro rfl
      exact absurd (hs.resolve_left Bool.false_ne_true) (by simp [hidden])
    exact (if_neg elsewhere).trans (h.statement.same s hs)

lemma keepReaders_readAnswering (hidden : place.allowsIn = false) (reply : Reply Node)
    (depth : Nat) : KeepReaders (read depth) (readAnswering place reply depth) := by
  induction depth with
  | zero =>
    have stuck (b : Bool) : KeepsIn b (fun _ => .stuck : Reader Node) (fun _ => .stuck) :=
      inferInstance
    exact ⟨fun _ _ => stuck true, stuck false⟩
  | succ depth ih =>
    exact keepReaders_answeringAt hidden reply (inferInstanceAs (KeepReaders (production _) _))

/-- On the way through a script no statement is asked for where `in` is no operator. -/
lemma scriptWith_readAnswering (hidden : place.allowsIn = false) (reply : Reply Node) (depth : Nat)
    (name : Bytes) (first : Token) (rest : List Token) :
    scriptWith (readAnswering place reply depth) name (start first rest) =
      scriptReader depth name (start first rest) := by
  have same : KeepReaders (read depth) (readAnswering place reply depth) :=
    keepReaders_readAnswering hidden reply depth
  have script : KeepsIn false (scriptWith (read depth) name)
      (scriptWith (readAnswering place reply depth) name) := by
    unfold scriptWith
    infer_instance
  exact script.same (start first rest) (.inr rfl)

/-- A statement that is stuck leaves the script stuck. -/
lemma scriptWith_of_stuck {s : ReaderState} (inside : s.current.kind ≠ .eof)
    (stuck : readers .statement s = .stuck) (name : Bytes) :
    scriptWith readers name s = .stuck := by
  have goesOn : isAtAny [.eof] s = .ok false s := by simp [isAtAny, look, inside]
  have recovered : recovering (readers .statement) s = .stuck := by rw [recovering, stuck]
  have turn : statementTurn (readers .statement) [] s = .stuck := by
    unfold statementTurn
    rw [bind_of_ok goesOn]
    exact bind_of_stuck recovered
  have body : statements (readers .statement) [] s = .stuck := bind_of_stuck turn
  have here : here s = .ok s.current.span s := rfl
  exact (bind_of_ok here).trans (bind_of_stuck body)

/-- The first statement is read at the first token. -/
lemma entersStatement_start (name : Bytes) {first : Token} {rest : List Token}
    (ends : EndsOnce (first :: rest)) (inside : first.kind ≠ .eof) :
    EntersStatement name first rest (start first rest) := by
  refine ⟨.stuck, fun same => ?_⟩
  have few : (start first rest).ahead.length < rest.length + 2 :=
    Nat.lt_add_of_pos_right Nat.two_pos
  obtain ⟨n, t, run, -, -⟩ := @scriptReader_toEnd _ name (start first rest) ends few
  have stuck : readAnswering (start first rest) .stuck (rest.length + 2) .statement
      (start first rest) = .stuck := if_pos rfl
  rw [@scriptWith_of_stuck _ (start first rest) inside stuck name, run] at same
  cases same

lemma IsPhrase.keepsIn [KeepReaders readers readers] {α : Type} {p : Reader α}
    (h : IsPhrase readers p) : KeepsIn true p p := by
  cases h <;> infer_instance

end Entries

/-- **`in` is an operator wherever a statement starts.** On the way through any tokens, valid or
not, each statement is read where `in` is an operator, the first of them at the first token, and one
that ends with a fault leaves it so for the next, also if the fault is in the head of a loop. What
reads an expression, a pattern, a function or a class leaves `in` as it was, and behind a fault as
it was or an operator. -/
theorem script_keepsIn (name : Bytes) (first : Token) (rest : List Token) :
    (∀ place, EntersStatement name first rest place → place.allowsIn = true) ∧
    (EndsOnce (first :: rest) → first.kind ≠ .eof →
      EntersStatement name first rest (start first rest)) ∧
    (∀ depth s l t, s.allowsIn = true → recovering (read depth .statement) s = .ok l t →
      t.allowsIn = true) ∧
    ∀ (depth : Nat) (α : Type) (p : Reader α), IsPhrase (read depth) p →
      ∀ s, (p s).KeepsIn s.allowsIn := by
  refine ⟨fun place enters => ?_, entersStatement_start name, fun depth s l t before run => ?_,
    fun depth α p phrase s => ?_⟩
  · obtain ⟨reply, differs⟩ := enters
    by_contra hidden
    exact differs (scriptWith_readAnswering (Bool.eq_false_iff.mpr hidden) reply _ name first rest)
  · have keeps : KeepsIn false (recovering (read depth .statement))
        (recovering (read depth .statement)) := inferInstance
    have kept := keeps.keeps s (.inr before)
    rw [run] at kept
    exact kept.trans before
  · exact phrase.keepsIn.keeps s (.inl rfl)

/-- In `for ([) ; b` the fault is inside of an array in the head; the statement `b` behind it is
read where `in` is an operator. -/
theorem script_keepsIn_recovered :
    let first : Token := ⟨.kwFor, Span.none, [], [], false⟩
    let rest : List Token := [TokenKind.lparen, .lbracket, .rparen, .semi, .identifier, .eof].map
      (⟨·, Span.none, [], [], false⟩)
    EntersStatement [] first rest (start first rest) ∧
      ∃ place, place.current.kind = .identifier ∧ place.faults.length = 1 ∧
        EntersStatement [] first rest place ∧ place.allowsIn = true := by
  intro first rest
  let fault : SyntaxFault := ⟨.expected .expression .rparen, Span.none⟩
  let semi : Token := ⟨.semi, Span.none, [], [], false⟩
  let name : Token := ⟨.identifier, Span.none, [], [], false⟩
  let last : Token := ⟨.eof, Span.none, [], [], false⟩
  let place : ReaderState := ⟨semi, name, [last], [fault], true, []⟩
  let isStuck : Reply Node → Bool := fun | .stuck => true | _ => false
  have enters : EntersStatement [] first rest place := by
    refine ⟨.stuck, fun same => ?_⟩
    have stuck := congrArg isStuck same
    revert stuck
    decide +kernel
  have ends : EndsOnce (first :: rest) := by simp [EndsOnce, first, rest]
  obtain ⟨allows, atStart, -⟩ := script_keepsIn [] first rest
  exact ⟨atStart ends (by decide), place, rfl, rfl, enters, allows place enters⟩

end ModuleLint.Grammar
