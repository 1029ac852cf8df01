import ModuleLint.Token.Gap
import ModuleLint.Token.Quoted

/-!
The tokens of a source.

A text is a sequence of gaps and tokens, and the last token is the end of the text. Each token is
the longest that its first byte allows; only a slash needs to know the token before it, to tell a
division from a regular expression.
-/

namespace ModuleLint

/-- The token at the head of a text `b :: rest`, after a token of kind `previous` if there is
one. -/
def Lexeme.scan (previous : Option TokenKind) (b : UInt8) (rest : Bytes) : Lexeme :=
  if startsName b then name (b :: rest)
  else if Byte.isDigit b || (b == Byte.dot && headIs Byte.isDigit rest) then number (b :: rest)
  else
    match Quote.ofByte? b with
    | some q => quoted q rest
    | none =>
      if b = Byte.slash ∧ ¬ previous.any endsOperand then regex rest else punctuator b rest

/-- The tokens of a text and the errors found in it, both in order. -/
structure TokenList where
  tokens : List Token
  faults : List LexicalFault
  deriving DecidableEq, Repr

namespace TokenList

/-- The list with a token, and the errors found on the way to its end, before it. -/
def prepend (token : Token) (faults : List LexicalFault) (l : TokenList) : TokenList :=
  ⟨token :: l.tokens, faults ++ l.faults⟩

/-- The span of `text` at a place in a file. -/
def spanOf (file : Bytes) (place : Place) (text : Bytes) : Span :=
  ⟨file, place.toPosition, (place.after text).toPosition⟩

/-- The error of a comment that is never closed, in a gap at a place. -/
def gapFaults (file : Bytes) (place : Place) (gap : Gap) (text : Bytes) : List LexicalFault :=
  gap.unclosed.toList.map fun n =>
    let before := gap.size - n
    ⟨.unterminatedComment, spanOf file (place.after (text.take before)) (text.drop before)⟩

/-- The tokens of the rest of a file that starts at a place, after a token of kind `previous`. -/
def scanFrom (file : Bytes) (previous : Option TokenKind) (place : Place) (text : Bytes) :
    TokenList :=
  let gap := Gap.scan text
  let start := place.after (text.take gap.size)
  let before := gapFaults file place gap text
  match h : text.drop gap.size with
  | [] => ⟨[⟨.eof, spanOf file start [], [], [], gap.newline⟩], before⟩
  | b :: rest =>
    let lexeme := Lexeme.scan previous b rest
    let bytes := (b :: rest).take lexeme.size
    let faults := lexeme.errors.map fun (error, read) =>
      ⟨error, spanOf file start ((b :: rest).take read)⟩
    (scanFrom file lexeme.kind (start.after bytes) (rest.drop (lexeme.size - 1))).prepend
      ⟨lexeme.kind, spanOf file start bytes, bytes, lexeme.value.getD bytes, gap.newline⟩
      (before ++ faults)
termination_by text.length
decreasing_by
  have := congrArg List.length h
  simp at this ⊢
  omega

end TokenList

/-- The tokens of a source. -/
def Source.tokens (s : Source) : TokenList := TokenList.scanFrom s.name none Place.first s.content

end ModuleLint
