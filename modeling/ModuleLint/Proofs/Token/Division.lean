import ModuleLint.Proofs.Token.Tiling

/-!
A slash behind a name.

Whether a slash divides or starts a regular expression is decided by the kind of the token before it
alone. Behind an identifier and the keywords that are operands by themselves it divides; behind
every other keyword it does not, also where the keyword is the name of a property.
-/

namespace ModuleLint

open TokenList

namespace Lexeme

/-- A slash divides behind the end of an operand. -/
lemma scan_slash (previous : Option TokenKind) (rest : Bytes) :
    scan previous Byte.slash rest =
      if previous.any endsOperand then punctuator Byte.slash rest else regex rest := by
  have starts : ¬ startsName Byte.slash := by decide
  have digit : (Byte.isDigit Byte.slash || (Byte.slash == Byte.dot && headIs Byte.isDigit rest)) =
      false := rfl
  have quote : Quote.ofByte? Byte.slash = none := by decide
  unfold scan
  rw [if_neg starts, digit, if_neg Bool.false_ne_true, quote]
  cases previous.any endsOperand <;> rfl

/-- The punctuators that start with a slash. -/
lemma punctuator_slash (rest : Bytes) :
    (punctuator Byte.slash rest).kind = .slash ∨
      (punctuator Byte.slash rest).kind = .slashAssign := by
  have reads : punctuator Byte.slash rest =
      if peek 0 '=' rest then plain .slashAssign 2 else plain .slash 1 := rfl
  rw [reads]
  split
  · exact .inr rfl
  · exact .inl rfl

/-- The names that are operands wherever they stand. -/
def operandNames : List TokenKind := [.identifier, .kwThis, .kwSuper, .kwNull, .kwTrue, .kwFalse]

lemma endsOperand_of_isName {kind : TokenKind} (h : kind.isName) :
    endsOperand kind ↔ kind ∈ operandNames := by
  cases kind <;> first | decide | cases h

end Lexeme

open Lexeme

/-- **A slash behind a name divides exactly if the name is an operand by itself.** Behind an
identifier, `this`, `super`, `null`, `true` and `false`, a token that starts with a slash is a
division; behind any other keyword it is read as a regular expression. What stands before the name,
be it a dot, makes no difference. -/
theorem Source.slash_after_name {s : Source} {before after : List Token} {name next : Token}
    (h : s.tokens.tokens = before ++ name :: next :: after) (isName : name.kind.isName)
    (slash : next.lexeme.head? = some Byte.slash) :
    if name.kind ∈ operandNames then next.kind = .slash ∨ next.kind = .slashAssign
    else next.kind = .regex ∨ next.kind = .error := by
  have split : s.tokens.tokens = (before ++ [name]) ++ next :: after := by
    rw [h, List.append_assoc]
    rfl
  have some : next.lexeme ≠ [] := fun none => by
    rw [none] at slash
    cases slash
  obtain ⟨front, text, b, rest, -, -, here, -⟩ := tokens_cut split some
  rw [List.getLast?_concat] at here
  have first : b = Byte.slash := by
    rw [here] at slash
    exact Option.some.inj ((head?_tokenBytes _ b rest).symm.trans slash)
  have kind : next.kind = (scan name.kind Byte.slash rest).kind := by
    rw [here, ← first]
    rfl
  rw [kind, scan_slash]
  split
  case isTrue operand =>
    rw [Option.any_some, (endsOperand_of_isName isName).mpr operand]
    exact punctuator_slash rest
  case isFalse other =>
    rw [Option.any_some, if_neg (mt (endsOperand_of_isName isName).mp other)]
    exact kind_regexFrom 1 false rest

/-- A token that stands for its own bytes, on the first line of a file. -/
def Token.onFirstLine (file : Bytes) (kind : TokenKind) (text : Bytes) (start : UInt32) : Token :=
  let stop := start + text.length.toUInt32
  ⟨kind, ⟨file, ⟨1, start + 1, start⟩, ⟨1, stop + 1, stop⟩⟩, text, text, false⟩

/-- Behind the property in `a.this /**// b` a slash divides. -/
theorem Source.slash_after_name_this :
    ∃ before name next after,
      (Source.mk (ascii "a.js") (ascii "a.this /**// b")).tokens.tokens =
        before ++ name :: next :: after ∧
      before.getLast?.map (·.kind) = some .dot ∧ name.kind.isName ∧
      next.lexeme.head? = some Byte.slash ∧ (next.kind = .slash ∨ next.kind = .slashAssign) := by
  let token := Token.onFirstLine (ascii "a.js")
  have tokens : (Source.mk (ascii "a.js") (ascii "a.this /**// b")).tokens.tokens =
      [token .identifier (ascii "a") 0, token .dot (ascii ".") 1] ++
        token .kwThis (ascii "this") 2 :: token .slash (ascii "/") 11 ::
          [token .identifier (ascii "b") 13, token .eof [] 14] := by
    decide +kernel
  have isName : (token .kwThis (ascii "this") 2).kind.isName := by decide
  have slash : (token .slash (ascii "/") 11).lexeme.head? = some Byte.slash := by decide
  have kind := Source.slash_after_name tokens isName slash
  rw [if_pos (by decide)] at kind
  exact ⟨_, _, _, _, tokens, by decide, isName, slash, kind⟩

/-- In `a.default / b;` the slash behind the property starts a regular expression that does not
end. -/
theorem Source.slash_after_name_default :
    ∃ before name next after,
      (Source.mk (ascii "a.js") (ascii "a.default / b;")).tokens.tokens =
        before ++ name :: next :: after ∧
      before.getLast?.map (·.kind) = some .dot ∧ name.kind.isName ∧
      next.lexeme.head? = some Byte.slash ∧ ¬ (next.kind = .slash ∨ next.kind = .slashAssign) := by
  let token := Token.onFirstLine (ascii "a.js")
  have tokens : (Source.mk (ascii "a.js") (ascii "a.default / b;")).tokens.tokens =
      [token .identifier (ascii "a") 0, token .dot (ascii ".") 1] ++
        token .kwDefault (ascii "default") 2 :: token .error (ascii "/ b;") 10 ::
          [token .eof [] 14] := by
    decide +kernel
  exact ⟨_, _, _, _, tokens, by decide, by decide, by decide, by decide⟩

end ModuleLint
