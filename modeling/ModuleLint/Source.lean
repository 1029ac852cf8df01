import ModuleLint.Bytes

/-!
Source texts and positions in them.

Lines and columns count from one and offsets from zero, all in bytes. `Place` counts without bound
and moves over a text byte by byte; `Position` is what is recorded of it, in 32-bit words. Lines end
at line feeds alone; the offsets at which they start are an index in which the line of any offset is
searched.
-/

namespace ModuleLint

/-- A recorded position. The position of nothing in particular is all zeros. -/
structure Position where
  line : UInt32
  column : UInt32
  offset : UInt32
  deriving DecidableEq, Repr, Inhabited

/-- A region of a file, from its first byte to the byte after its last. -/
structure Span where
  file : Bytes
  start : Position
  stop : Position
  deriving DecidableEq, Repr, Inhabited

/-- The span of what was not read from any file. -/
def Span.none : Span := ⟨[], ⟨0, 0, 0⟩, ⟨0, 0, 0⟩⟩

/-- From the start of `a` to the end of `b`. -/
def Span.merge (a b : Span) : Span := ⟨a.file, a.start, b.stop⟩

/-- A position of one byte in a file. -/
structure Location where
  file : Bytes
  position : Position
  length : UInt32
  deriving DecidableEq, Repr

/-- Where a byte stands in a text. -/
structure Place where
  line : Nat
  column : Nat
  offset : Nat
  deriving DecidableEq, Repr

namespace Place

/-- The place of the first byte. -/
def first : Place := ⟨1, 1, 0⟩

/-- The place after a byte. -/
def step (p : Place) (b : UInt8) : Place :=
  if b = Byte.lineFeed then ⟨p.line + 1, 1, p.offset + 1⟩
  else ⟨p.line, p.column + 1, p.offset + 1⟩

/-- The place after a text. -/
def after (p : Place) (s : Bytes) : Place := s.foldl step p

/-- The place as recorded, each number modulo 2^32. -/
def toPosition (p : Place) : Position :=
  ⟨p.line.toUInt32, p.column.toUInt32, p.offset.toUInt32⟩

end Place

/-- A named source text. -/
structure Source where
  name : Bytes
  content : Bytes
  deriving DecidableEq, Repr

namespace Source

def length (s : Source) : Nat := s.content.length

/-- The byte at an offset, zero past the end. -/
def byteAt (s : Source) (offset : Nat) : UInt8 := s.content.getD offset 0

/-- The bytes from `start` on and before `stop`; all the rest if `stop` lies before `start`. -/
def slice (s : Source) (start stop : Nat) : Bytes :=
  if stop < start then s.content.drop start else (s.content.take stop).drop start

/-- The offsets behind the line feeds of a text that stands at an offset. -/
def lineStartsFrom (offset : Nat) : Bytes → List Nat
  | [] => []
  | b :: rest =>
    if b = Byte.lineFeed then (offset + 1) :: lineStartsFrom (offset + 1) rest
    else lineStartsFrom (offset + 1) rest

/-- The offsets at which the lines start, in order. -/
def lineStarts (s : Source) : List Nat := 0 :: lineStartsFrom 0 s.content

/-- The index behind the numbers of an ascending list that are not above `n`, by halving the `size`
numbers from `low` on among which they end. -/
def upperBound (l : List Nat) (n low size : Nat) : Nat :=
  if size = 0 then low
  else
    let half := size / 2
    if n < l.getD (low + half) 0 then upperBound l n low half
    else upperBound l n (low + half + 1) (size - half - 1)
termination_by size

/-- An offset stands on the last line that starts no later. -/
def location (s : Source) (offset : Nat) : Location :=
  let starts := s.lineStarts
  let index := upperBound starts offset 0 starts.length - 1
  let column := offset - starts.getD index 0
  ⟨s.name, ⟨index.toUInt32 + 1, column.toUInt32 + 1, offset.toUInt32⟩, 1⟩

/-- The number of lines, in a word. -/
def lineCount (s : Source) : UInt32 := s.lineStarts.length.toUInt32

/-- Line `n`, counted from one, without the line feed and the carriage returns at its end; empty if
there is no such line. -/
def line (s : Source) (n : Nat) : Bytes :=
  let starts := s.lineStarts
  if n = 0 ∨ starts.length < n then []
  else
    let stop := if n < starts.length then starts.getD n 0 else s.length
    Bytes.dropEndWhile (fun b => b == Byte.lineFeed || b == Byte.carriageReturn)
      (s.slice (starts.getD (n - 1) 0) stop)

end Source

end ModuleLint
