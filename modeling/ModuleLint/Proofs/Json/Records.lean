import ModuleLint.Log.Record
import ModuleLint.Proofs.Json.Written

/-!
Log records as JSON.

Each record is one line. A reader that takes control bytes as they stand gets all of the record
back. The line is a JSON text only if the module and the message hold no control byte without a
short escape.
-/

namespace ModuleLint

open JsonReader

namespace JsonReader

/-! ### Texts that are refused -/

variable {α : Type} {isRaw : UInt8 → Bool} {text : Bytes} {depth : Nat}

/-- The reader fails on a text, whatever follows it. -/
def Refuses (p : JsonReader α) (text : Bytes) : Prop := ∀ rest, p (text ++ rest) = none

/-- A list is refused for one of its items. -/
lemma someItems_refused {item : JsonReader α} {l : List (Bytes × α)}
    (each : ∀ p ∈ l, Reads item p.1 p.2) (bad : Refuses item text) {close : UInt8}
    (closes : close ∈ closings) (most : Nat) (more : List Bytes) :
    Refuses (someItems item close most)
      (Bytes.join [Byte.comma] (l.map (·.1) ++ text :: more)) := by
  intro rest
  induction l generalizing most with
  | nil =>
    cases most with
    | zero => rfl
    | succ most =>
      cases more <;> simp [someItems, Bytes.join, List.intercalate_cons_cons, bad _]
  | cons p l ih =>
    obtain ⟨first, behind⟩ := List.forall_mem_cons.mp each
    cases most with
    | zero => rfl
    | succ most =>
      have others : l.map (·.1) ++ text :: more ≠ [] := by simp
      have refused := ih behind most
      simp only [Bytes.join, List.map_cons, List.cons_append,
        List.intercalate_cons_of_ne_nil others, List.append_assoc, List.nil_append] at refused ⊢
      rw [someItems_more first closes, refused]
      rfl

/-- An object is refused for one of its values. -/
lemma refuses_object (plain : ∀ b, isPlain b → isRaw b) {l : List (Bytes × Bytes × JsonValue)}
    (each : ∀ m ∈ l, Denotes isRaw depth m.2.1 m.2.2) (bad : Refuses (value isRaw depth) text)
    (name : Bytes) (more : List (Bytes × Bytes)) :
    Refuses (value isRaw (depth + 1))
      (Diagnostic.jsonObject (l.map (fun m => (m.1, m.2.1)) ++ (name, text) :: more)) := by
  let written (m : Bytes × Bytes) := Diagnostic.quoted m.1 ++ ascii ":" ++ m.2
  let good := l.map fun m => (written (m.1, m.2.1), m.1, m.2.2)
  have closes : Byte.closeBrace ∈ closings := by decide
  have reads : ∀ p ∈ good, Reads (member isRaw (value isRaw depth)) p.1 p.2 := by
    intro p hp rest ends
    obtain ⟨m, hm, rfl⟩ := List.mem_map.mp hp
    rw [List.append_assoc, member_quoted plain, (each m hm).reads _ (Nat.le_refl _) _ ends]
    rfl
  have refuses : Refuses (member isRaw (value isRaw depth)) (written (name, text)) := by
    intro rest
    rw [List.append_assoc, member_quoted plain, bad]
    rfl
  have unclosed : Refuses (mark Byte.closeBrace)
      (Bytes.join [Byte.comma] (good.map (·.1) ++ written (name, text) :: more.map written)) := by
    intro rest
    have starts (m : Bytes × Bytes) : Starts (written m) := ⟨_, _, rfl, by decide, by decide⟩
    rcases l with _ | ⟨m, l⟩ <;> exact mark_join (starts _) closes _ rest
  have inside (most : Nat) := someItems_refused reads refuses closes most (more.map written)
  intro rest
  have object : Diagnostic.jsonObject (l.map (fun m => (m.1, m.2.1)) ++ (name, text) :: more) ++
      rest = Byte.openBrace ::
        (Bytes.join [Byte.comma] (good.map (·.1) ++ written (name, text) :: more.map written) ++
          (Byte.closeBrace :: rest)) := by
    simp [Diagnostic.jsonObject, good, written, Function.comp_def]
  rw [object]
  simp +decide [value_cons, items, unclosed _, inside _ _]

end JsonReader

namespace LogRecord

/-- A record as a value. -/
def toValue (r : LogRecord) (ms : Int) : JsonValue :=
  .object [(ascii "ts", .number ms 0), (ascii "level", .string r.level.name),
    (ascii "module", .string r.module), (ascii "msg", .string r.message)]

/-- The control bytes that have an escape. -/
def escapedControls : List UInt8 := [Byte.lineFeed, Byte.carriageReturn, Byte.tab]

/-- Whether all bytes of a text may stand in a string as they are written. -/
def isLegible (isRaw : UInt8 → Bool) (s : Bytes) : Bool :=
  s.all fun b => isRaw b || escapedControls.contains b

lemma isLegible_append (isRaw : UInt8 → Bool) (s t : Bytes) :
    isLegible isRaw (s ++ t) = (isLegible isRaw s && isLegible isRaw t) :=
  List.all_append

def quoted (s : Bytes) : Bytes := [Byte.doubleQuote] ++ s.flatMap escaped ++ [Byte.doubleQuote]

end LogRecord

lemma LogLevel.name_mem (l : LogLevel) : l.name ∈ ascii "???" :: named.map (·.2.1) := by
  unfold name
  cases found : named.lookup l with
  | none => exact List.mem_cons_self
  | some shown =>
    obtain ⟨before, behind, all, -⟩ := List.lookup_eq_some_iff.mp found
    simp [all]

namespace LogRecord

/-- The names of levels need no escapes. -/
lemma flatMap_name (l : LogLevel) : l.name.flatMap escaped = l.name ∧ ∀ b ∈ l.name, isPlain b := by
  have each : ∀ name ∈ ascii "???" :: LogLevel.named.map (·.2.1),
      name.flatMap escaped = name ∧ name.all isPlain := by
    decide
  obtain ⟨same, plain⟩ := each _ l.name_mem
  exact ⟨same, List.all_eq_true.mp plain⟩

/-- The members of the object of a record. -/
def members (r : LogRecord) (ms : Int) : List (Bytes × Bytes) :=
  [(ascii "ts", Bytes.ofInt ms), (ascii "level", quoted r.level.name),
    (ascii "module", quoted r.module), (ascii "msg", quoted r.message)]

lemma toJson_eq (r : LogRecord) (ms : Int) :
    r.toJson ms = Diagnostic.jsonObject (r.members ms) ++ [Byte.lineFeed] := by
  have names : Diagnostic.quoted (ascii "ts") = ascii "\"ts\"" ∧
      Diagnostic.quoted (ascii "level") = ascii "\"level\"" ∧
      Diagnostic.quoted (ascii "module") = ascii "\"module\"" ∧
      Diagnostic.quoted (ascii "msg") = ascii "\"msg\"" := by
    decide
  obtain ⟨ts, level, module, msg⟩ := names
  simp [toJson, members, Diagnostic.jsonObject, ts, level, module, msg, quoted, flatMap_name,
    Bytes.join]
  rfl

lemma escaped_self {b : UInt8} (h : b ∉ Byte.doubleQuote :: Byte.backslash :: escapedControls) :
    escaped b = [b] := by
  simp only [escapedControls, List.mem_cons, List.not_mem_nil, or_false, not_or] at h
  obtain ⟨quote, backslash, lineFeed, carriageReturn, tab⟩ := h
  simp [escaped, quote, backslash, lineFeed, carriageReturn, tab]

lemma escapes_escaped {isRaw : UInt8 → Bool} {b : UInt8}
    (legible : isRaw b ∨ b ∈ escapedControls) : Escapes isRaw (escaped b) b := by
  by_cases short : b ∈ Byte.doubleQuote :: Byte.backslash :: escapedControls
  · simp only [escapedControls, List.mem_cons, List.not_mem_nil, or_false] at short
    rcases short with rfl | rfl | rfl | rfl | rfl <;> exact escapes_letter (by decide)
  · rw [escaped_self short]
    have other : b ≠ Byte.doubleQuote ∧ b ≠ Byte.backslash ∧ b ≠ Byte.lineFeed := by
      refine ⟨?_, ?_, ?_⟩ <;> rintro rfl <;> exact short (by decide)
    have raw := legible.resolve_right fun control =>
      short (List.mem_cons_of_mem _ (List.mem_cons_of_mem _ control))
    exact escapes_self raw other

section Strings

variable {isRaw : UInt8 → Bool} {s : Bytes}

lemma denotes_quoted (legible : isLegible isRaw s) : Denotes isRaw 1 (quoted s) (.string s) := by
  refine denotes_string fun b hb => escapes_escaped ?_
  simpa using List.all_eq_true.mp legible b hb

/-- A string is refused for a control byte that stands for itself. -/
lemma refuses_quoted (plain : ∀ b, isPlain b → isRaw b) (bad : isLegible isRaw s = false)
    (depth : Nat) : Refuses (value isRaw depth) (quoted s) := by
  have refused (rest : Bytes) : pieces isRaw (s.flatMap escaped ++ rest) = none := by
    induction s with
    | nil => cases bad
    | cons b s ih =>
      by_cases legible : isRaw b ∨ b ∈ escapedControls
      · obtain ⟨piece, -, -, reads⟩ := (escapes_escaped legible).reads
        have behind : isLegible isRaw s = false := by
          simp only [isLegible, List.all_cons, Bool.and_eq_false_iff] at bad ⊢
          exact bad.resolve_left (by simpa [or_iff_not_imp_left] using legible)
        rw [List.flatMap_cons, List.append_assoc, reads, ih behind]
        rfl
      · rw [not_or] at legible
        have other : b ≠ Byte.doubleQuote ∧ b ≠ Byte.backslash := by
          constructor <;> rintro rfl <;> exact legible.1 (plain _ (by decide))
        have self : escaped b = [b] := escaped_self (by simp [other, legible.2])
        rw [List.flatMap_cons, self, List.append_assoc, List.singleton_append, pieces_self other,
          if_neg legible.1]
  intro rest
  cases depth with
  | zero => rfl
  | succ depth =>
    have behind := refused (Byte.doubleQuote :: rest)
    simp +decide [quoted, value_cons, behind]

end Strings

section Lines

variable {isRaw : UInt8 → Bool} (plain : ∀ b, isPlain b → isRaw b) (r : LogRecord) (ms : Int)

include plain

lemma denotes_level : Denotes isRaw 1 (quoted r.level.name) (.string r.level.name) := by
  refine denotes_string fun b hb => escapes_escaped (.inl (plain b ?_))
  exact (flatMap_name r.level).2 b hb

/-- The line of a legible record without its end. -/
lemma toJson_denotes (legible : isLegible isRaw (r.module ++ r.message)) :
    ∃ line, r.toJson ms = line ++ [Byte.lineFeed] ∧ Denotes isRaw 2 line (r.toValue ms) ∧
      2 ≤ line.length := by
  obtain ⟨module, message⟩ : isLegible isRaw r.module ∧ isLegible isRaw r.message := by
    simpa [isLegible_append] using legible
  have parts : ∀ m ∈ [(ascii "ts", Bytes.ofInt ms, JsonValue.number ms 0),
      (ascii "level", quoted r.level.name, .string r.level.name),
      (ascii "module", quoted r.module, .string r.module),
      (ascii "msg", quoted r.message, .string r.message)], Denotes isRaw 1 m.2.1 m.2.2 := by
    simp [denotes_integer, denotes_level plain, denotes_quoted, module, message]
  exact ⟨_, toJson_eq r ms, denotes_object plain parts, Nat.le_add_left 2 _⟩

/-- An illegible record is refused for its module or else for its message. -/
lemma refuses_members (illegible : isLegible isRaw (r.module ++ r.message) = false)
    (depth : Nat) :
    Refuses (value isRaw (depth + 2)) (Diagnostic.jsonObject (r.members ms)) := by
  have deeper : 1 ≤ depth + 1 := Nat.le_add_left 1 depth
  cases module : isLegible isRaw r.module with
  | false =>
    have before : ∀ m ∈ [(ascii "ts", Bytes.ofInt ms, JsonValue.number ms 0),
        (ascii "level", quoted r.level.name, .string r.level.name)],
        Denotes isRaw 1 m.2.1 m.2.2 := by
      simp [denotes_integer, denotes_level plain]
    exact refuses_object plain (fun m hm => (before m hm).mono deeper)
      (refuses_quoted plain module _) (ascii "module") [(ascii "msg", quoted r.message)]
  | true =>
    have message : isLegible isRaw r.message = false := by
      simpa [isLegible_append, module] using illegible
    have before : ∀ m ∈ [(ascii "ts", Bytes.ofInt ms, JsonValue.number ms 0),
        (ascii "level", quoted r.level.name, .string r.level.name),
        (ascii "module", quoted r.module, .string r.module)], Denotes isRaw 1 m.2.1 m.2.2 := by
      simp [denotes_integer, denotes_level plain, denotes_quoted, module]
    exact refuses_object plain (fun m hm => (before m hm).mono deeper)
      (refuses_quoted plain message _) (ascii "msg") []

lemma read?_toJson :
    JsonValue.read? isRaw (r.toJson ms) =
      if isLegible isRaw (r.module ++ r.message) then some (r.toValue ms) else none := by
  split
  case isTrue legible =>
    obtain ⟨line, text, denotes, long⟩ := toJson_denotes plain r ms legible
    rw [text, denotes.read? (Nat.le_succ_of_le long)]
  case isFalse illegible =>
    have refuses := refuses_members plain r ms (Bool.eq_false_iff.mpr illegible)
    obtain ⟨depth, long⟩ : ∃ depth, (r.toJson ms).length = depth + 2 := by
      rw [toJson_eq]
      exact ⟨_, rfl⟩
    rw [JsonValue.read?, long, toJson_eq, refuses]
    rfl

end Lines

/-- **Log records as JSON are lines.** They lose nothing, and they are JSON texts if no control byte
stands for itself. -/
theorem toJson_line (r : LogRecord) (ms : Int) :
    ∃ line, r.toJson ms = line ++ [Byte.lineFeed] ∧ Byte.lineFeed ∉ line ∧
      JsonValue.read? (fun _ => true) (r.toJson ms) = some (r.toValue ms) ∧
      JsonValue.read? isPlain (r.toJson ms) =
        if isLegible isPlain (r.module ++ r.message) then some (r.toValue ms) else none := by
  have every (s : Bytes) : isLegible (fun _ => true) s := by simp [isLegible]
  obtain ⟨line, text, denotes, long⟩ := toJson_denotes (fun _ _ => rfl) r ms (every _)
  refine ⟨line, text, denotes.line, ?_, read?_toJson (fun _ plain => plain) r ms⟩
  rw [text, denotes.read? (Nat.le_succ_of_le long)]

theorem toJson_control :
    JsonValue.read? isPlain (toJson ⟨.info, ascii "m", ascii "a\x01b"⟩ 0) = none :=
  Option.isNone_iff_eq_none.mp (by decide +kernel)

end LogRecord

end ModuleLint
