import ModuleLint.Grammar.Reader

/-!
The parts of the grammar that occur inside themselves.

Every other part is read by a function that is given a reader for these. Such a function takes a
token before it uses that reader, so the number of tokens left bounds the depth of the recursion.
-/

namespace ModuleLint

inductive Nonterminal
  | primary
  | newExpression
  | unary
  /-- Operands joined by operators that bind tighter than a level. -/
  | binary (level : Nat)
  | assignment
  | expression
  | bindingTarget
  | bindingElement
  | statement
  deriving DecidableEq, Repr

namespace Grammar

/-- Readers for the nonterminals. -/
abbrev Readers := Nonterminal → Reader Node

end Grammar

end ModuleLint
