import ModuleLint.Grammar.Statement
import ModuleLint.Log.Record
import ModuleLint.Token.List

/-!
Scripts.

`read` closes the recursion of the grammar: a nonterminal is read at a depth by readers one level
less deep. Each level takes a token, so one more than the number of tokens is deep enough.
-/

namespace ModuleLint

namespace Grammar

/-- The reader of a nonterminal, given readers for those inside it. -/
def production (readers : Readers) : Nonterminal → Reader Node
  | .primary => primary readers
  | .newExpression => newExpression readers
  | .unary => unary readers
  | .binary level => binary readers level
  | .assignment => assignment readers
  | .expression => expression readers
  | .bindingTarget => bindingTarget readers
  | .bindingElement => bindingElement readers
  | .statement => statement readers

/-- The reader of a nonterminal, to a depth. -/
def read : Nat → Readers
  | 0, _ => fun _ => .stuck
  | depth + 1, n => production (read depth) n

/-- The state before the first of some tokens. -/
def start (first : Token) (rest : List Token) : ReaderState := ⟨first, first, rest, [], true, []⟩

/-- Reads a nonterminal from the first of some tokens on. -/
def readFrom (n : Nonterminal) (first : Token) (rest : List Token) : Reply Node :=
  read (rest.length + 2) n (start first rest)

/-- All statements up to the end of the text. -/
def scriptReader (depth : Nat) (name : Bytes) : Reader Node := do
  let start ← Reader.here
  let body ← Reader.statements (read depth .statement) []
  return ⟨.script, name, start.merge (← Reader.here), {}, body⟩

/-- The script that tokens form, or the errors in it. No tokens at all form none. -/
def script (name : Bytes) : List Token → Except (List SyntaxFault) Node
  | [] => .error []
  | first :: rest =>
    match scriptReader (rest.length + 2) name (start first rest) with
    | .ok n s => if s.faults.isEmpty then .ok n else .error s.faults
    | .fault fault s => .error (s.faults ++ [fault])
    | .stuck => .error []

end Grammar

/-- Why a source is no script. -/
inductive ParseFailure
  | lexical (faults : List LexicalFault)
  | syntactic (faults : List SyntaxFault)
  deriving DecidableEq, Repr

namespace ParseFailure

/-- The errors, in order. -/
def faults : ParseFailure → List SyntaxFault
  | .lexical l => l.map fun f => ⟨.lexical f.error, f.span⟩
  | .syntactic l => l

/-- What is logged of the failure of a named source. -/
def record (name : Bytes) (f : ParseFailure) : LogRecord :=
  let what :=
    match f with
    | .lexical _ => ascii " lexer error(s)"
    | .syntactic _ => ascii " parse error(s)"
  ⟨.debug, ascii "parse", name ++ ascii ": " ++ Bytes.ofNat f.faults.length ++ what⟩

end ParseFailure

/-- The script that a source holds. A source with errors in its tokens is not read further. -/
def Source.script (s : Source) : Except ParseFailure Node :=
  let l := s.tokens
  if l.faults.isEmpty then (Grammar.script s.name l.tokens).mapError .syntactic
  else .error (.lexical l.faults)

end ModuleLint
