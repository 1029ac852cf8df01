import ModuleLint.Diagnostic.Emitter
import ModuleLint.Proofs.Json.Written

/-!
Diagnostics as JSON lose nothing that they show.

Each diagnostic is one line, and the object on it gives back the texts, whatever bytes they hold,
the lines and columns, and the notes in their order. Offsets are not written.
-/

namespace ModuleLint

open JsonReader

namespace Diagnostic

/-- A position as a value. -/
def positionValue (p : Position) : JsonValue :=
  .object [(ascii "line", .number p.line.toNat 0), (ascii "column", .number p.column.toNat 0)]

/-- A span as a value. -/
def spanValue (s : Span) : JsonValue :=
  .object [(ascii "file", .string s.file), (ascii "start", positionValue s.start),
    (ascii "end", positionValue s.stop)]

/-- A diagnostic as a value. -/
def toValue (d : Diagnostic) : JsonValue :=
  .object [(ascii "severity", .string d.severity.text), (ascii "code", .string d.code),
    (ascii "message", .string d.message), (ascii "span", spanValue d.span),
    (ascii "notes", .array (d.notes.map .string)), (ascii "help", .array (d.help.map .string))]

section Parts

variable {isRaw : UInt8 → Bool} (plain : ∀ b, isPlain b → isRaw b)

include plain

lemma denotes_position (p : Position) : Denotes isRaw 2 (jsonPosition p) (positionValue p) := by
  have parts : ∀ m ∈ [(ascii "line", Bytes.ofInt p.line.toNat, JsonValue.number p.line.toNat 0),
      (ascii "column", Bytes.ofInt p.column.toNat, .number p.column.toNat 0)],
      Denotes isRaw 1 m.2.1 m.2.2 := by
    simp [denotes_integer]
  exact denotes_object plain parts

lemma denotes_span (s : Span) : Denotes isRaw 3 (jsonSpan s) (spanValue s) := by
  have file := (denotes_quoted plain s.file).mono (Nat.le_succ 1)
  have parts : ∀ m ∈ [(ascii "file", quoted s.file, JsonValue.string s.file),
      (ascii "start", jsonPosition s.start, positionValue s.start),
      (ascii "end", jsonPosition s.stop, positionValue s.stop)],
      Denotes isRaw 2 m.2.1 m.2.2 := by
    simp [file, denotes_position plain]
  exact denotes_object plain parts

lemma denotes_texts (texts : List Bytes) :
    Denotes isRaw 2 (jsonArray (texts.map quoted)) (.array (texts.map .string)) := by
  have parts : ∀ p ∈ texts.map fun s => (quoted s, JsonValue.string s), Denotes isRaw 1 p.1 p.2 :=
    List.forall_mem_map.mpr fun s _ => denotes_quoted plain s
  simpa [Function.comp_def] using denotes_array parts

/-- The line of a diagnostic without its end. -/
lemma toJson_denotes (d : Diagnostic) :
    ∃ line, d.toJson = line ++ [Byte.lineFeed] ∧ Denotes isRaw 4 line d.toValue ∧
      4 ≤ line.length := by
  have text (s : Bytes) := (denotes_quoted plain s).mono (show 1 ≤ 3 by decide)
  have texts (l : List Bytes) := (denotes_texts plain l).mono (Nat.le_succ 2)
  have parts : ∀ m ∈ [(ascii "severity", quoted d.severity.text, JsonValue.string d.severity.text),
      (ascii "code", quoted d.code, .string d.code),
      (ascii "message", quoted d.message, .string d.message),
      (ascii "span", jsonSpan d.span, spanValue d.span),
      (ascii "notes", jsonArray (d.notes.map quoted), .array (d.notes.map .string)),
      (ascii "help", jsonArray (d.help.map quoted), .array (d.help.map .string))],
      Denotes isRaw 3 m.2.1 m.2.2 := by
    simp [text, texts, denotes_span plain]
  exact ⟨_, rfl, denotes_object plain parts, Nat.le_add_left 4 _⟩

end Parts

end Diagnostic

/-- **Diagnostics as JSON are lines that lose nothing.** -/
theorem Emitter.emit_json (e : Emitter) (json : e.format = .json) (d : Diagnostic) :
    ∃ line, (e.emit d).2 = line ++ [Byte.lineFeed] ∧ Byte.lineFeed ∉ line ∧
      JsonValue.read? isPlain (e.emit d).2 = some d.toValue := by
  have written : (e.emit d).2 = d.toJson := by simp [emit, render, json]
  obtain ⟨line, text, denotes, long⟩ := @Diagnostic.toJson_denotes isPlain (fun _ plain => plain) d
  rw [written, text]
  exact ⟨line, rfl, denotes.line, denotes.read? (Nat.le_succ_of_le long)⟩

theorem Emitter.emit_json_control_bytes :
    (Emitter.start .json).format = .json ∧
      ∃ line, ((Emitter.start .json).emit ⟨.error, [0x01], [0x22, 0x5C, 0x0A, 0xFF],
          ⟨[0x1F], ⟨1, 20, 0⟩, ⟨300, 4, 9⟩⟩, [[0x61], []], []⟩).2 = line ++ [Byte.lineFeed] ∧
        Byte.lineFeed ∉ line ∧
        JsonValue.read? isPlain ((Emitter.start .json).emit ⟨.error, [0x01],
            [0x22, 0x5C, 0x0A, 0xFF], ⟨[0x1F], ⟨1, 20, 0⟩, ⟨300, 4, 9⟩⟩, [[0x61], []], []⟩).2 =
          some (.object [(ascii "severity", .string (ascii "error")),
            (ascii "code", .string [0x01]), (ascii "message", .string [0x22, 0x5C, 0x0A, 0xFF]),
            (ascii "span", .object [(ascii "file", .string [0x1F]),
              (ascii "start", .object [(ascii "line", .number 1 0),
                (ascii "column", .number 20 0)]),
              (ascii "end", .object [(ascii "line", .number 300 0),
                (ascii "column", .number 4 0)])]),
            (ascii "notes", .array [.string [0x61], .string []]), (ascii "help", .array [])]) :=
  ⟨rfl, Emitter.emit_json (Emitter.start .json) rfl _⟩

end ModuleLint
