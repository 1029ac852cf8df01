import ModuleLint.Diagnostic.Basic

/-!
Diagnostics as text.

A header is followed by the place, the line of the source with carets under the span, and notes.
Where the source or the line is not known, or the line is empty, the place stands alone. The carets
of a span of several lines reach to the end of its first line.
-/

namespace ModuleLint.Diagnostic

/-- The colours of the parts of a diagnostic; none, unless colours are on. -/
structure Palette where
  bold : Bytes
  reset : Bytes
  /-- The place, and what frames the source line. -/
  frame : Bytes
  caret : Bytes
  severity : Severity → Bytes

namespace Palette

def plain : Palette := ⟨[], [], [], [], fun _ => []⟩

def bright : Palette where
  bold := ascii "\x1b[1m"
  reset := ascii "\x1b[0m"
  frame := ascii "\x1b[94m"
  caret := ascii "\x1b[91m"
  severity
    | .error => ascii "\x1b[91m"
    | .warning => ascii "\x1b[93m"
    | .note => ascii "\x1b[96m"
    | .help => ascii "\x1b[92m"

end Palette

variable (p : Palette)

/-- `error[KEY]: message`. -/
def header (d : Diagnostic) : Bytes :=
  p.bold ++ p.severity d.severity ++ d.severity.text ++
    (if d.code.isEmpty then [] else ascii "[" ++ d.code ++ ascii "]") ++
    p.reset ++ p.bold ++ ascii ": " ++ d.message ++ p.reset ++ ascii "\n"

/-- The file, line and column of a span. -/
def placeLine (span : Span) : Bytes :=
  p.frame ++ ascii "  --> " ++ p.reset ++ span.file ++ ascii ":" ++
    Bytes.ofNat span.start.line.toNat ++ ascii ":" ++ Bytes.ofNat span.start.column.toNat ++
    ascii "\n"

/-- The width of the line number: that of the number, at least four. -/
def gutterWidth (line : Nat) : Nat := max (Bytes.ofNat line).length 4

/-- What stands before the source line and before the carets: a number or blanks, and a bar. -/
def gutter (width : Nat) (number : Bytes) : Bytes :=
  p.frame ++ number.padLeft width Byte.space ++ ascii " | " ++ p.reset

/-- An empty line of the frame. -/
def frameLine (width : Nat) : Bytes :=
  p.frame ++ List.replicate width Byte.space ++ ascii " |" ++ p.reset ++ ascii "\n"

/-- The number of bytes before the carets. -/
def caretStart (span : Span) : Nat := span.start.column.toNat - 1

/-- The number of carets, at least one. -/
def caretCount (span : Span) (lineLength : Nat) : Nat :=
  let stop :=
    if span.stop.line = span.start.line ∧ span.start.column < span.stop.column then
      min (span.stop.column.toNat - 1) lineLength
    else lineLength
  max 1 (stop - caretStart span)

/-- What stands under the part of a line before the carets: tabs under tabs, else spaces. Past the
end of the line its last byte goes on. -/
def filler (line : Bytes) (count : Nat) : Bytes :=
  (List.range count).map fun i =>
    if line.getD (min i (line.length - 1)) 0 = Byte.tab then Byte.tab else Byte.space

/-- The source line in its frame, with carets under it. -/
def snippet (span : Span) (line : Bytes) : Bytes :=
  let width := gutterWidth span.start.line.toNat
  frameLine p width ++
    gutter p width (Bytes.ofNat span.start.line.toNat) ++ line ++ ascii "\n" ++
    gutter p width [] ++ filler line (caretStart span) ++
    p.caret ++ List.replicate (caretCount span line.length) (byte '^') ++ p.reset ++ ascii "\n" ++
    frameLine p width

/-- Each of some remarks on a line. -/
def remarks (severity : Severity) (texts : List Bytes) : Bytes :=
  texts.flatMap fun t =>
    p.severity severity ++ ascii "  = " ++ severity.text ++ p.reset ++ ascii ": " ++ t ++ ascii "\n"

/-- The place of a span and its source line, if there is one. -/
def excerpt (lineOf : Span → Bytes) (span : Span) : Bytes :=
  if span.file.isEmpty then []
  else
    let line := lineOf span
    placeLine p span ++ if line.isEmpty then [] else snippet p span line

/-- The diagnostic as text. `lineOf` gives the line that a span starts on, or nothing. -/
def toText (lineOf : Span → Bytes) (d : Diagnostic) : Bytes :=
  header p d ++ excerpt p lineOf d.span ++ remarks p .note d.notes ++ remarks p .help d.help

end ModuleLint.Diagnostic
