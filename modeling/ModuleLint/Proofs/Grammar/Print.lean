import Mathlib.Tactic.Common
import ModuleLint.Grammar.Expression
import ModuleLint.Proofs.Syntax.Walk
import ModuleLint.Proofs.Token.Tables

/-!
Expressions as tokens.

Every expression inside another one is put into parentheses, so that no operator can take what is
not its own. Elements of arrays have a comma after each of them, and a hole is that comma alone.
`Printable` says which trees are expressions that can be written so.
-/

namespace ModuleLint

/-! ### Tokens -/

namespace Token

/-- A token that stands for its own text, read from no file. -/
def word (kind : TokenKind) (text : Bytes) : Token := ⟨kind, .none, text, text, false⟩

/-- A literal that denotes a text and is written some other way. -/
def written (quote : TokenKind → Bytes → Bytes) (kind : TokenKind) (text : Bytes) : Token :=
  ⟨kind, .none, quote kind text, text, false⟩

/-- A token of a kind with one spelling. -/
def sign (kind : TokenKind) : Token := word kind kind.text

@[simp] lemma kind_word (kind : TokenKind) (text : Bytes) : (word kind text).kind = kind := rfl

@[simp] lemma kind_written (quote : TokenKind → Bytes → Bytes) (kind : TokenKind)
    (text : Bytes) : (written quote kind text).kind = kind := rfl

@[simp] lemma kind_sign (kind : TokenKind) : (sign kind).kind = kind := rfl

/-- A token from no file that is no arrow. -/
def Quiet (t : Token) : Prop := t.span = .none ∧ t.kind ≠ .arrow

@[simp] lemma quiet_word {kind : TokenKind} {text : Bytes} :
    (word kind text).Quiet ↔ kind ≠ .arrow := by
  simp [Quiet, word]

@[simp] lemma quiet_written {quote : TokenKind → Bytes → Bytes} {kind : TokenKind}
    {text : Bytes} : (written quote kind text).Quiet ↔ kind ≠ .arrow := by
  simp [Quiet, written]

@[simp] lemma quiet_sign {kind : TokenKind} : (sign kind).Quiet ↔ kind ≠ .arrow := quiet_word

/-- Tokens from no file with no arrow among them. -/
def AllQuiet (l : List Token) : Prop := ∀ t ∈ l, t.Quiet

@[simp] lemma allQuiet_nil : AllQuiet [] := nofun

@[simp] lemma allQuiet_cons {t : Token} {l : List Token} :
    AllQuiet (t :: l) ↔ t.Quiet ∧ AllQuiet l := List.forall_mem_cons

@[simp] lemma allQuiet_append {l m : List Token} :
    AllQuiet (l ++ m) ↔ AllQuiet l ∧ AllQuiet m := List.forall_mem_append

end Token

open Token

namespace TokenKind

/-- The kinds with one spelling, but for the arrow. -/
def operators : List TokenKind := (keywords ++ punctuators).filter (· ≠ .arrow)

/-- The operator that is spelled so. -/
def spelled (text : Bytes) : TokenKind := (operators.find? (·.text == text)).getD .identifier

/-- No two operators are spelled alike. -/
lemma spelled_text {k : TokenKind} (h : k ∈ operators) : spelled k.text = k := by
  have all : ∀ k ∈ operators, spelled k.text = k := by decide +kernel
  exact all k h

lemma spelled_ne_arrow (text : Bytes) : spelled text ≠ .arrow := by
  unfold spelled
  cases h : operators.find? (·.text == text) with
  | none => nofun
  | some k =>
    have noArrow : ∀ k ∈ operators, k ≠ .arrow := by decide
    exact noArrow k (List.mem_of_find?_eq_some h)

lemma keyword?_ne_arrow (word : Bytes) : (keyword? word).getD .identifier ≠ .arrow := by
  cases h : keyword? word with
  | none => nofun
  | some k =>
    have noArrow : ∀ k ∈ keywords, k ≠ .arrow := by decide
    exact noArrow k (mem_keywords h)

end TokenKind

namespace Node

/-! ### Printing -/

/-- The tokens in parentheses. -/
def grouped (tokens : List Token) : List Token := sign .lparen :: tokens ++ [sign .rparen]

/-- The kinds of nodes that are parts of expressions and no expressions themselves. -/
def partKinds : List NodeKind := [.empty, .spread, .stringKey, .computedProp, .defaultValue]

/-- The tokens of a node of a kind inside an expression. -/
def asPart (kind : NodeKind) (tokens : List Token) : List Token :=
  if kind ∈ partKinds then tokens else grouped tokens

/-- The parts with commas between them. -/
def separated (parts : List (List Token)) : List Token := [sign .comma].intercalate parts

/-- The parts with a comma after each. -/
def terminated (parts : List (List Token)) : List Token :=
  parts.flatMap fun part => part ++ [sign .comma]

variable (quote : TokenKind → Bytes → Bytes)

/-- The tokens of a node, given those of its parts. -/
def layout (n : Node) (parts : List (List Token)) : List Token :=
  match n.kind, parts with
  | .name, _ => [word .identifier n.value]
  | .numberLit, _ => [word .number n.value]
  | .stringLit, _ => [written quote .string n.value]
  | .regexLit, _ => [word .regex n.value]
  | .templateLit, _ => [written quote .template n.value]
  | .thisExpr, _ => [sign .kwThis]
  | .superExpr, _ => [sign .kwSuper]
  | .nullLit, _ => [sign .kwNull]
  | .trueLit, _ => [sign .kwTrue]
  | .falseLit, _ => [sign .kwFalse]
  | .arrayLit, parts => sign .lbracket :: terminated parts ++ [sign .rbracket]
  | .objectLit, parts => sign .lbrace :: separated parts ++ [sign .rbrace]
  | .spread, [value] => sign .ellipsis :: value
  | .stringKey, [] => [word .identifier n.value]
  | .stringKey, [value] =>
    if optionIs .defaultValue n.first? then word .identifier n.value :: value
    else written quote .string n.value :: sign .colon :: value
  | .defaultValue, [_, value] => sign .assign :: value
  | .computedProp, [key, value] =>
    sign .lbracket :: key ++ sign .rbracket :: sign .colon :: value
  | .unary, [value] => sign (.spelled n.value) :: value
  | .update, [value] =>
    if n.flags.isAfterOperand then value ++ [sign (.spelled n.value)]
    else sign (.spelled n.value) :: value
  | .binary, [left, right] | .assignOp, [left, right] =>
    left ++ sign (.spelled n.value) :: right
  | .conditional, [condition, whenTrue, whenFalse] =>
    condition ++ sign .question :: whenTrue ++ sign .colon :: whenFalse
  | .assign, [target, value] => target ++ sign .assign :: value
  | .comma, [left, right] => left ++ sign .comma :: right
  | .getProp, [object] =>
    object ++ [sign .dot, word ((TokenKind.keyword? n.value).getD .identifier) n.value]
  | .getElem, [object, index] => object ++ sign .lbracket :: index ++ [sign .rbracket]
  | .call, callee :: args => callee ++ grouped (separated args)
  | .new, callee :: args => sign .kwNew :: callee ++ grouped (separated args)
  | _, _ => []

mutual

/-- The tokens of an expression, or of a part of one. -/
def print : Node → List Token
  | ⟨kind, value, span, flags, children⟩ =>
    layout quote ⟨kind, value, span, flags, children⟩ (parts children)

/-- The tokens of nodes inside an expression. -/
def parts : List Node → List (List Token)
  | [] => []
  | n :: rest => asPart n.kind n.print :: parts rest

end

/-- The tokens of a node inside an expression. -/
def part (n : Node) : List Token := asPart n.kind (n.print quote)

/-- The tokens of the arguments of a call. -/
def argumentList (args : List Node) : List Token := grouped (separated (args.map (part quote)))

lemma parts_eq (l : List Node) : parts quote l = l.map (part quote) := by
  induction l with
  | nil => rfl
  | cons n l ih => rw [parts, ih, List.map_cons, part]

lemma print_eq (n : Node) :
    n.print quote = layout quote n (n.children.map (part quote)) := by
  cases n
  rw [print, parts_eq]

/-! ### Tokens that are printed -/

lemma separated_cons (part : List Token) {parts : List (List Token)} (h : parts ≠ []) :
    separated (part :: parts) = part ++ sign .comma :: separated parts := by
  rw [separated, List.intercalate_cons_of_ne_nil h, List.append_assoc]
  rfl

lemma separated_singleton (part : List Token) : separated [part] = part :=
  List.intercalate_singleton

lemma allQuiet_separated {parts : List (List Token)} (h : ∀ part ∈ parts, AllQuiet part) :
    AllQuiet (separated parts) := by
  induction parts with
  | nil => exact allQuiet_nil
  | cons part parts ih =>
    obtain ⟨first, rest⟩ := List.forall_mem_cons.mp h
    by_cases hp : parts = []
    · rw [hp, separated_singleton]
      exact first
    · rw [separated_cons part hp]
      simpa using ⟨first, ih rest⟩

lemma allQuiet_terminated {parts : List (List Token)} (h : ∀ part ∈ parts, AllQuiet part) :
    AllQuiet (terminated parts) := by
  induction parts with
  | nil => exact allQuiet_nil
  | cons part parts ih =>
    obtain ⟨first, rest⟩ := List.forall_mem_cons.mp h
    have tail := ih rest
    rw [terminated] at tail
    simpa [terminated] using ⟨first, tail⟩

lemma allQuiet_layout (n : Node) {parts : List (List Token)} (h : ∀ part ∈ parts, AllQuiet part) :
    AllQuiet (layout quote n parts) := by
  have spelled (text : Bytes) := TokenKind.spelled_ne_arrow text
  have name (text : Bytes) := TokenKind.keyword?_ne_arrow text
  unfold layout
  split
  -- arrays and objects, and then calls and `new`
  case h_11 | h_12 => simp [allQuiet_terminated h, allQuiet_separated h]
  case h_27 | h_28 =>
    obtain ⟨first, rest⟩ := List.forall_mem_cons.mp h
    simp [grouped, first, allQuiet_separated rest]
  -- all other nodes have a fixed number of parts
  all_goals simp_all
  all_goals split <;> simp_all

/-- No printed token comes from a file or is an arrow. -/
lemma allQuiet_print (n : Node) : AllQuiet (n.print quote) := by
  induction n using Node.induction with
  | step n ih =>
    rw [print_eq]
    refine allQuiet_layout quote n (List.forall_mem_map.mpr fun c hc => ?_)
    unfold part asPart grouped
    split
    · exact ih c hc
    · simpa using ih c hc

end Node

/-! ### Trees that can be printed -/

/-- Where a node stands. -/
inductive Role
  | expression
  | element
  | property
  | argument
  deriving DecidableEq

/-- The trees of expressions and of parts of them, but for functions, classes and methods. -/
inductive Printable : Role → Node → Prop
  | literal {kind : NodeKind} {text : Bytes} {span : Span}
    (h : kind ∈ [NodeKind.name, .numberLit, .stringLit, .regexLit, .templateLit]) :
    Printable .expression ⟨kind, text, span, {}, []⟩
  | keyword {kind : NodeKind} {span : Span}
    (h : kind ∈ [NodeKind.thisExpr, .superExpr, .nullLit, .trueLit, .falseLit]) :
    Printable .expression ⟨kind, [], span, {}, []⟩
  | array {span : Span} {elements : List Node} (h : ∀ n ∈ elements, Printable .element n) :
    Printable .expression ⟨.arrayLit, [], span, {}, elements⟩
  | object {span : Span} {properties : List Node} (h : ∀ n ∈ properties, Printable .property n) :
    Printable .expression ⟨.objectLit, [], span, {}, properties⟩
  | unary {k : TokenKind} {span : Span} {value : Node} (hk : Grammar.isUnaryOperator k)
    (h : Printable .expression value) : Printable .expression ⟨.unary, k.text, span, {}, [value]⟩
  | update {k : TokenKind} {span : Span} {target : Node} (isAfterOperand : Bool)
    (hk : k = .plusPlus ∨ k = .minusMinus) (h : Printable .expression target)
    (ht : Grammar.isReference target) :
    Printable .expression ⟨.update, k.text, span, { isAfterOperand }, [target]⟩
  | binary {k : TokenKind} {span : Span} {left right : Node} (hk : 0 < Grammar.level true k)
    (hl : Printable .expression left) (hr : Printable .expression right) :
    Printable .expression ⟨.binary, k.text, span, {}, [left, right]⟩
  | conditional {span : Span} {condition whenTrue whenFalse : Node}
    (hc : Printable .expression condition) (ht : Printable .expression whenTrue)
    (hf : Printable .expression whenFalse) :
    Printable .expression ⟨.conditional, [], span, {}, [condition, whenTrue, whenFalse]⟩
  | assign {span : Span} {target value : Node} (hl : Printable .expression target)
    (ht : Grammar.isAssignable target) (hr : Printable .expression value) :
    Printable .expression ⟨.assign, [], span, {}, [target, value]⟩
  | assignOp {k : TokenKind} {span : Span} {target value : Node}
    (hk : k.isAssignmentOperator ∧ k ≠ .assign) (hl : Printable .expression target)
    (ht : Grammar.isReference target) (hr : Printable .expression value) :
    Printable .expression ⟨.assignOp, k.text, span, {}, [target, value]⟩
  | comma {span : Span} {left right : Node} (hl : Printable .expression left)
    (hr : Printable .expression right) :
    Printable .expression ⟨.comma, [], span, {}, [left, right]⟩
  | getProp {name : Bytes} {span : Span} {object : Node} (h : Printable .expression object) :
    Printable .expression ⟨.getProp, name, span, {}, [object]⟩
  | getElem {span : Span} {object index : Node} (h : Printable .expression object)
    (hi : Printable .expression index) :
    Printable .expression ⟨.getElem, [], span, {}, [object, index]⟩
  | call {span : Span} {callee : Node} {args : List Node} (h : Printable .expression callee)
    (ha : ∀ n ∈ args, Printable .argument n) :
    Printable .expression ⟨.call, [], span, {}, callee :: args⟩
  | new {span : Span} {callee : Node} {args : List Node} (h : Printable .expression callee)
    (ha : ∀ n ∈ args, Printable .argument n) :
    Printable .expression ⟨.new, [], span, {}, callee :: args⟩
  /-- An expression as an element or argument. -/
  | item {role : Role} {n : Node} (hr : role = .element ∨ role = .argument)
    (h : Printable .expression n) : Printable role n
  | spread {role : Role} {span : Span} {value : Node} (hr : role ≠ .expression)
    (h : Printable .expression value) : Printable role ⟨.spread, [], span, {}, [value]⟩
  | hole {span : Span} : Printable .element ⟨.empty, [], span, {}, []⟩
  | valued {key : Bytes} {span : Span} {value : Node} (h : Printable .expression value) :
    Printable .property ⟨.stringKey, key, span, {}, [value]⟩
  | shorthand {key : Bytes} {span : Span} : Printable .property ⟨.stringKey, key, span, {}, []⟩
  | defaulted {key : Bytes} {span span' span'' : Span} {value : Node}
    (h : Printable .expression value) :
    Printable .property ⟨.stringKey, key, span, {},
      [⟨.defaultValue, [], span', {}, [⟨.name, key, span'', {}, []⟩, value]⟩]⟩
  | computed {span : Span} {key value : Node} (hk : Printable .expression key)
    (h : Printable .expression value) :
    Printable .property ⟨.computedProp, [], span, {}, [key, value]⟩

end ModuleLint
