import ModuleLint.Bytes

/-!
What stands between tokens: blanks, line feeds and comments.

A line comment ends before its line feed, which is then a blank like any other. A block comment that
is never closed reaches to the end of the text and is an error.
-/

namespace ModuleLint

/-- The part of a text before its first token. -/
structure Gap where
  size : Nat
  /-- It holds a line feed. -/
  newline : Bool
  /-- The size of a block comment at its end that is never closed. -/
  unclosed : Option Nat
  deriving DecidableEq, Repr

namespace Gap

def empty : Gap := ⟨0, false, none⟩

/-- The gap with `n` more bytes before it, none of them a line feed. -/
def after (n : Nat) (g : Gap) : Gap := ⟨g.size + n, g.newline, g.unclosed⟩

/-- The gap with a line feed before it. -/
def afterNewline (g : Gap) : Gap := ⟨g.size + 1, true, g.unclosed⟩

/-- Blanks other than the line feed. -/
def isBlank (b : UInt8) : Bool :=
  [Byte.space, Byte.tab, Byte.carriageReturn, Byte.formFeed, Byte.verticalTab].contains b

/-- The part of a gap that a byte stands in. -/
inductive Within
  | blanks
  | lineComment
  /-- Inside a block comment, of which `read` bytes stand before. -/
  | blockComment (read : Nat)

/-- The rest of a gap at the head of a text. -/
def scanFrom : Within → Bytes → Gap
  | .blanks, Byte.slash :: Byte.slash :: rest => (scanFrom .lineComment rest).after 2
  | .blanks, Byte.slash :: Byte.star :: rest => (scanFrom (.blockComment 2) rest).after 2
  | .blanks, b :: rest =>
    if b = Byte.lineFeed then (scanFrom .blanks rest).afterNewline
    else if isBlank b then (scanFrom .blanks rest).after 1
    else empty
  | .blanks, [] => empty
  | .lineComment, b :: rest =>
    if b = Byte.lineFeed then (scanFrom .blanks rest).afterNewline
    else (scanFrom .lineComment rest).after 1
  | .lineComment, [] => empty
  | .blockComment _, Byte.star :: Byte.slash :: rest => (scanFrom .blanks rest).after 2
  | .blockComment read, b :: rest =>
    let g := scanFrom (.blockComment (read + 1)) rest
    if b = Byte.lineFeed then g.afterNewline else g.after 1
  | .blockComment read, [] => ⟨0, false, some read⟩

/-- The gap at the head of a text. -/
def scan (text : Bytes) : Gap := scanFrom .blanks text

end Gap

end ModuleLint
