import ModuleLint.Diagnostic.Basic

/-!
Diagnostics as JSON: one object on a line.

Control bytes are escaped; every other byte stands for itself, also above 7F.
-/

namespace ModuleLint.Diagnostic

/-- The control bytes with a short escape. -/
def shortEscapes : List (UInt8 × UInt8) :=
  [(Byte.doubleQuote, Byte.doubleQuote), (Byte.backslash, Byte.backslash), (0x08, byte 'b'),
    (Byte.formFeed, byte 'f'), (Byte.lineFeed, byte 'n'), (Byte.carriageReturn, byte 'r'),
    (Byte.tab, byte 't')]

/-- A byte inside a JSON string. -/
def escaped (b : UInt8) : Bytes :=
  match shortEscapes.lookup b with
  | some letter => [Byte.backslash, letter]
  | none =>
    if b < 0x20 then
      ascii "\\u00" ++ [Byte.ofDigit (b.toNat / 16), Byte.ofDigit (b.toNat % 16)]
    else [b]

/-- A text as a JSON string. -/
def quoted (s : Bytes) : Bytes := [Byte.doubleQuote] ++ s.flatMap escaped ++ [Byte.doubleQuote]

/-- Values between brackets, with commas between them. -/
def jsonArray (values : List Bytes) : Bytes :=
  [Byte.openBracket] ++ Bytes.join [Byte.comma] values ++ [Byte.closeBracket]

/-- Named values between braces, with commas between them. -/
def jsonObject (members : List (Bytes × Bytes)) : Bytes :=
  [Byte.openBrace] ++
    Bytes.join [Byte.comma] (members.map fun (name, value) => quoted name ++ ascii ":" ++ value) ++
    [Byte.closeBrace]

def jsonPosition (p : Position) : Bytes :=
  jsonObject
    [(ascii "line", Bytes.ofNat p.line.toNat), (ascii "column", Bytes.ofNat p.column.toNat)]

def jsonSpan (s : Span) : Bytes :=
  jsonObject [(ascii "file", quoted s.file), (ascii "start", jsonPosition s.start),
    (ascii "end", jsonPosition s.stop)]

/-- The diagnostic as a line with a JSON object. -/
def toJson (d : Diagnostic) : Bytes :=
  jsonObject [(ascii "severity", quoted d.severity.text), (ascii "code", quoted d.code),
    (ascii "message", quoted d.message), (ascii "span", jsonSpan d.span),
    (ascii "notes", jsonArray (d.notes.map quoted)), (ascii "help", jsonArray (d.help.map quoted))]
  ++ ascii "\n"

end ModuleLint.Diagnostic
