import ModuleLint.Proofs.Command.ConfigLine

/-!
Configuration files read back what they say.

A layout is a way to write a configuration: the two tables with an entry on a line for each thing to
say, empty lines and comments anywhere, and tables of others between them. Whatever the layout, the
file is read as the configuration.
-/

namespace ModuleLint

namespace Config

variable {c : Config}

/-! ### Layouts -/

/-- A configuration that can be written: the items of its lists and its keys can stand where they
have to, and the excluded names form a set. -/
structure Writable (c : Config) : Prop where
  extensions : ∀ s ∈ c.extensions, IsItem s
  exclude : ∀ s ∈ c.exclude, IsItem s
  isSet : c.exclude.Pairwise (· < ·)
  levels : ∀ p ∈ c.levels, IsKey p.1

/-- The lines of a table with some keys and values, with empty lines and comments among them. -/
inductive Body : List (Bytes × Bytes) → List Bytes → Prop
  | nil : Body [] []
  | skip {l : List (Bytes × Bytes)} {line : Bytes} {lines : List Bytes} (empty : Holds [] line)
    (behind : Body l lines) : Body l (line :: lines)
  | entry {l : List (Bytes × Bytes)} {key value content line : Bytes} {lines : List Bytes}
    (assigns : Assigns key value content) (holds : Holds content line) (behind : Body l lines) :
    Body ((key, value) :: l) (line :: lines)

/-- A line that starts with a bracket. -/
def IsHeader (line : Bytes) : Prop := ∃ a rest, Blanks a ∧ line = a ++ Byte.openBracket :: rest

/-- A line that is the header of neither table. -/
structure IsForeign (line : Bytes) : Prop where
  oneLine : Byte.lineFeed ∉ line
  noCheck : ¬ Holds (ascii "[check]") line
  noRules : ¬ Holds (ascii "[check.rules]") line

/-- Whole tables with other headers, whatever is in them. -/
structure AreTables (lines : List Bytes) : Prop where
  foreign : ∀ line ∈ lines, IsForeign line
  header : ∀ line ∈ lines.head?, IsHeader line

def formatName : DiagnosticFormat → Bytes
  | .text => ascii "text"
  | .json => ascii "json"

/-- The keys and values of the table `[check]`, given the texts of the two lists. -/
def settings (c : Config) (extensions exclude : Bytes) : List (Bytes × Bytes) :=
  (c.format.map fun f => (ascii "format", quoted (formatName f))).toList ++
    [(ascii "warnings-as-errors", if c.warningsAsErrors then ascii "true" else ascii "false"),
      (ascii "extensions", quoted extensions), (ascii "exclude", quoted exclude)]

/-- The keys and values of the table `[check.rules]`. -/
def ruleTexts (c : Config) : List (Bytes × Bytes) :=
  c.levels.map fun (key, level) => (key, quoted level.text)

/-- A way to write a configuration. -/
structure Layout (c : Config) where
  /-- What stands before the two tables. -/
  before : List Bytes
  foreign : ∀ line ∈ before, IsForeign line
  /-- The table `[check]`. -/
  checkHeader : Bytes
  isCheckHeader : Holds (ascii "[check]") checkHeader
  extensions : Bytes
  listsExtensions : Lists c.extensions extensions
  /-- The excluded names in the order in which they are written. -/
  names : List Bytes
  sameNames : ∀ name, name ∈ names ↔ name ∈ c.exclude
  exclude : Bytes
  listsNames : Lists names exclude
  check : List Bytes
  isCheck : Body (c.settings extensions exclude) check
  /-- Other tables between the two. -/
  between : List Bytes
  areBetween : AreTables between
  /-- The table `[check.rules]`. -/
  rulesHeader : Bytes
  isRulesHeader : Holds (ascii "[check.rules]") rulesHeader
  rules : List Bytes
  isRules : Body c.ruleTexts rules
  /-- Other tables behind them. -/
  after : List Bytes
  areAfter : AreTables after

def Layout.lines (w : Layout c) : List Bytes :=
  w.before ++ w.checkHeader :: (w.check ++ (w.between ++ w.rulesHeader :: (w.rules ++ w.after)))

def Layout.text (w : Layout c) : Bytes := Bytes.join [Byte.lineFeed] w.lines

/-! ### Lines of a text -/

variable {line : Bytes} {lines rest : List Bytes} {table : Table} {l : List (Bytes × Bytes)}

/-- An empty line at the end has no entry. -/
lemma entriesFrom_concat_nil (table : Table) (lines : List Bytes) :
    entriesFrom table (lines ++ [[]]) = entriesFrom table lines := by
  induction lines generalizing table with
  | nil => simp [entriesFrom, withoutComment, trim, Bytes.dropEndWhile, Entry.ofLine?, Bytes.cut?]
  | cons line lines ih => simp only [List.cons_append, entriesFrom, ih]

/-- The entries of a text are those of its lines. -/
lemma entries_join (h : ∀ line ∈ lines, Byte.lineFeed ∉ line) (hl : lines ≠ []) :
    entries (Bytes.join [Byte.lineFeed] lines) = entriesFrom .other lines := by
  have split : (Bytes.join [Byte.lineFeed] lines).splitOn Byte.lineFeed = lines :=
    List.splitOn_intercalate _ h hl
  unfold entries Bytes.lines
  rw [split]
  split
  next before reversed =>
    have lines_eq : lines = before.reverse ++ [[]] := by
      rw [← List.reverse_reverse lines, reversed, List.reverse_cons]
    rw [lines_eq, entriesFrom_concat_nil]
  next => rfl

/-! ### Lines of a table -/

lemma read_checkHeader (h : Holds (ascii "[check]") line) :
    trim (withoutComment false line) = ascii "[check]" :=
  h.read (closed_of_plain (by decide) (by decide)) (by decide)

lemma read_rulesHeader (h : Holds (ascii "[check.rules]") line) :
    trim (withoutComment false line) = ascii "[check.rules]" :=
  h.read (closed_of_plain (by decide) (by decide)) (by decide)

/-- A header starts its table, wherever it stands. -/
lemma entriesFrom_check (h : Holds (ascii "[check]") line) :
    entriesFrom table (line :: rest) = entriesFrom .check rest := by
  rw [entriesFrom, read_checkHeader h]
  rfl

lemma entriesFrom_rules (h : Holds (ascii "[check.rules]") line) :
    entriesFrom table (line :: rest) = entriesFrom .rules rest := by
  rw [entriesFrom, read_rulesHeader h]
  rfl

lemma entriesFrom_skip (h : Holds [] line) :
    entriesFrom table (line :: rest) = entriesFrom table rest := by
  have empty := h.read (fun _ => rfl) (by decide)
  simp [entriesFrom, empty, Entry.ofLine?, Bytes.cut?]

/-- The entries of a table are read back in order. -/
lemma entriesFrom_body (h : Body l lines) (proper : table ≠ .other)
    (valid : ∀ p ∈ l, IsKey p.1 ∧ IsValue p.2) :
    entriesFrom table (lines ++ rest) =
      l.map (fun p => ⟨table, p.1, unquoted p.2⟩) ++ entriesFrom table rest := by
  induction h with
  | nil => rfl
  | skip empty behind ih => rw [List.cons_append, entriesFrom_skip empty, ih valid]
  | entry assigns holds behind ih =>
    obtain ⟨⟨hk, hv⟩, others⟩ := List.forall_mem_cons.mp valid
    have content := holds.read (assigns.closed hk hv) (assigns.isTrimmed hk hv)
    simp only [List.cons_append, entriesFrom, content, if_neg (assigns.noHeader hk),
      assigns.entry hk hv proper, ih others]
    rfl

lemma Body.oneLine (h : Body l lines) (valid : ∀ p ∈ l, IsKey p.1 ∧ IsValue p.2) :
    ∀ line ∈ lines, Byte.lineFeed ∉ line := by
  induction h with
  | nil => nofun
  | skip empty behind ih => exact List.forall_mem_cons.mpr ⟨empty.oneLine nofun, ih valid⟩
  | entry assigns holds behind ih =>
    obtain ⟨⟨hk, hv⟩, others⟩ := List.forall_mem_cons.mp valid
    exact List.forall_mem_cons.mpr ⟨holds.oneLine (assigns.oneLine hk hv), ih others⟩

/-! ### Other tables -/

/-- The first byte that is no blank is read first. -/
lemma head?_trim {b : UInt8} (hb : ¬ isBlank b) {a s : Bytes} (ha : Blanks a) :
    (trim (a ++ b :: s)).head? = some b := by
  have front : (a ++ b :: s).dropWhile isBlank = b :: s := by
    rw [ha.dropWhile_append, List.dropWhile_cons_of_neg hb]
  have back : (s.reverse ++ [b]).dropWhile isBlank = s.reverse.dropWhile isBlank ++ [b] := by
    rw [List.dropWhile_append]
    split
    next empty => simp [List.isEmpty_iff.mp empty, hb]
    next => rfl
  rw [trim, front, Bytes.dropEndWhile, List.reverse_cons, back, List.reverse_append]
  rfl

lemma IsHeader.read (h : IsHeader line) :
    (trim (withoutComment false line)).head? = some Byte.openBracket := by
  obtain ⟨a, rest, ha, rfl⟩ := h
  rw [ha.closed]
  exact head?_trim (by decide) ha

/-- A line that is not written as the header of one of the tables is not read as one. -/
lemma isForeign_iff : IsForeign line ↔
    Byte.lineFeed ∉ line ∧ Table.ofHeader (trim (withoutComment false line)) = .other := by
  constructor
  · intro h
    have holds := holds_read h.oneLine
    have noCheck : trim (withoutComment false line) ≠ ascii "[check]" := fun eq =>
      h.noCheck (eq ▸ holds)
    have noRules : trim (withoutComment false line) ≠ ascii "[check.rules]" := fun eq =>
      h.noRules (eq ▸ holds)
    exact ⟨h.oneLine, by rw [Table.ofHeader, if_neg noCheck, if_neg noRules]⟩
  · rintro ⟨oneLine, other⟩
    refine ⟨oneLine, fun h => ?_, fun h => ?_⟩
    · rw [read_checkHeader h] at other
      cases other
    · rw [read_rulesHeader h] at other
      cases other

instance (line : Bytes) : Decidable (IsForeign line) := decidable_of_iff _ isForeign_iff.symm

/-- Other lines have no entries, and lead to no table that has any. -/
lemma entriesFrom_foreign_line (h : IsForeign line) (start : table = .other ∨ IsHeader line) :
    entriesFrom table (line :: rest) = entriesFrom .other rest := by
  have other := (isForeign_iff.mp h).2
  rw [entriesFrom]
  by_cases header : (trim (withoutComment false line)).head? = some Byte.openBracket
  · rw [if_pos header, other]
  · rcases start with rfl | isHeader
    · rw [if_neg header]
      rfl
    · exact absurd isHeader.read header

lemma entriesFrom_foreign (foreign : ∀ line ∈ lines, IsForeign line) :
    entriesFrom .other (lines ++ rest) = entriesFrom .other rest := by
  induction lines with
  | nil => rfl
  | cons line lines ih =>
    obtain ⟨first, others⟩ := List.forall_mem_cons.mp foreign
    rw [List.cons_append, entriesFrom_foreign_line first (.inl rfl), ih others]

lemma entriesFrom_tables (h : AreTables lines) (table : Table) (rest : List Bytes) :
    ∃ reached, entriesFrom table (lines ++ rest) = entriesFrom reached rest := by
  obtain ⟨foreign, header⟩ := h
  cases lines with
  | nil => exact ⟨table, rfl⟩
  | cons line lines =>
    obtain ⟨first, others⟩ := List.forall_mem_cons.mp foreign
    refine ⟨.other, ?_⟩
    rw [List.cons_append, entriesFrom_foreign_line first (.inr (header line rfl)),
      entriesFrom_foreign others]

/-! ### What is read -/

namespace Layout

variable (ok : c.Writable) (w : Layout c)
include ok

lemma isItem_names : ∀ name ∈ w.names, IsItem name := fun name h =>
  ok.exclude name ((w.sameNames name).mp h)

lemma valid_check : ∀ p ∈ c.settings w.extensions w.exclude, IsKey p.1 ∧ IsValue p.2 := by
  have known : ∀ key ∈ [ascii "format", ascii "warnings-as-errors", ascii "extensions",
      ascii "exclude"], IsKey key := by decide +kernel
  have format (f : DiagnosticFormat) : IsValue (quoted (formatName f)) := by
    cases f <;> exact isValue_quoted (by decide) (by decide)
  have flag : IsValue (if c.warningsAsErrors then ascii "true" else ascii "false") := by
    split <;> exact ⟨by decide, by decide, closed_of_plain (by decide) (by decide), by decide⟩
  have extensions := w.listsExtensions.isValue ok.extensions
  have names := w.listsNames.isValue (w.isItem_names ok)
  intro p hp
  rw [settings, List.mem_append] at hp
  rcases hp with hp | hp
  · obtain ⟨f, -, rfl⟩ : ∃ f, c.format = some f ∧ (ascii "format", quoted (formatName f)) = p := by
      simpa using hp
    exact ⟨known _ (by simp), format f⟩
  · simp only [List.mem_cons, List.not_mem_nil, or_false] at hp
    rcases hp with rfl | rfl | rfl
    · exact ⟨known _ (by simp), flag⟩
    · exact ⟨known _ (by simp), extensions⟩
    · exact ⟨known _ (by simp), names⟩

omit w in
lemma valid_rules : ∀ p ∈ c.ruleTexts, IsKey p.1 ∧ IsValue p.2 := by
  have level (l : CheckLevel) : IsValue (quoted l.text) := by
    cases l <;> exact isValue_quoted (by decide) (by decide)
  intro p hp
  obtain ⟨rule, hr, rfl⟩ := List.mem_map.mp hp
  exact ⟨ok.levels rule hr, level rule.2⟩

lemma oneLine : ∀ line ∈ w.lines, Byte.lineFeed ∉ line := by
  have check := w.isCheck.oneLine (w.valid_check ok)
  have rules := w.isRules.oneLine (valid_rules ok)
  simp only [lines, List.mem_append, List.mem_cons]
  rintro line (h | rfl | h | h | rfl | h | h)
  · exact (w.foreign line h).oneLine
  · exact w.isCheckHeader.oneLine (by decide)
  · exact check line h
  · exact (w.areBetween.foreign line h).oneLine
  · exact w.isRulesHeader.oneLine (by decide)
  · exact rules line h
  · exact (w.areAfter.foreign line h).oneLine

/-- The entries of a text are those written in it. -/
lemma entries_text : entries w.text =
    (c.settings w.extensions w.exclude).map (fun p => ⟨.check, p.1, unquoted p.2⟩) ++
      c.ruleTexts.map (fun p => ⟨.rules, p.1, unquoted p.2⟩) := by
  have other : ∀ table, entriesFrom table w.after = [] := by
    intro table
    obtain ⟨reached, read⟩ := entriesFrom_tables w.areAfter table []
    rwa [List.append_nil] at read
  rw [text, entries_join (w.oneLine ok) (by simp [lines]), lines,
    entriesFrom_foreign w.foreign, entriesFrom_check w.isCheckHeader,
    entriesFrom_body w.isCheck (by decide) (w.valid_check ok)]
  obtain ⟨reached, between⟩ :=
    entriesFrom_tables w.areBetween .check (w.rulesHeader :: (w.rules ++ w.after))
  rw [between, entriesFrom_rules w.isRulesHeader,
    entriesFrom_body w.isRules (by decide) (valid_rules ok), other, List.append_nil]

end Layout

/-- The rules add their levels, in order. -/
lemma foldl_rules (levels : List (Bytes × CheckLevel)) (c : Config) :
    ((levels.map fun (key, level) => (key, quoted level.text)).map fun p =>
      (⟨.rules, p.1, unquoted p.2⟩ : Entry)).foldl take c =
      { c with levels := c.levels ++ levels } := by
  induction levels generalizing c with
  | nil => simp
  | cons p levels ih =>
    have level : ruleLevel? (unquoted (quoted p.2.text)) = some p.2 := by
      rw [unquoted_quoted]
      cases p.2 <;> decide +kernel
    have first : c.take ⟨.rules, p.1, unquoted (quoted p.2.text)⟩ =
        { c with levels := c.levels ++ [p] } := by
      simp [take, rule, level]
    simp only [List.map_cons, List.foldl_cons, first, ih, List.append_assoc]
    rfl

lemma foldl_settings (c : Config) (extensions exclude : Bytes) :
    ((c.settings extensions exclude).map fun p =>
      (⟨.check, p.1, unquoted p.2⟩ : Entry)).foldl take standard =
      ⟨c.format, c.warningsAsErrors, items extensions, nameSet (items exclude), []⟩ := by
  simp only [settings, List.map_append, List.map_cons, List.map_nil, List.foldl_append,
    List.foldl_cons, List.foldl_nil, unquoted_quoted]
  obtain ⟨format, raises, -, -, -⟩ := c
  rcases format with - | (- | -) <;> cases raises <;> rfl

/-- **A configuration file is read back as what it says**, however it is laid out. -/
theorem parse_layout (ok : c.Writable) (w : Layout c) : (parse w.text).1 = c := by
  have names : items w.exclude = w.names := w.listsNames.items_eq (w.isItem_names ok)
  have extensions : items w.extensions = c.extensions := w.listsExtensions.items_eq ok.extensions
  rw [parse_eq, w.entries_text ok, List.foldl_append, foldl_settings, ruleTexts, foldl_rules,
    extensions, names, nameSet_eq ok.isSet w.sameNames]
  rfl

/-- Comments, empty lines, other tables and bytes that mean something outside of quotes. -/
theorem parse_layout_noisy :
    (parse (Bytes.join [Byte.lineFeed]
      [ascii "# settings", ascii "[package]", ascii "format = \"text\"", ascii "",
        ascii "  [check] # of the checker", ascii "format = \"json\"\r", ascii "\t",
        ascii "warnings-as-errors=true # \"on\"", ascii "extensions = \".js, .a#b=[\"",
        ascii "exclude = \"lib,build\"", ascii "[lint]", ascii "exclude = \"test\"",
        ascii "[check.rules]", ascii "JSC_X\t= \"off\"", ascii " # again",
        ascii "JSC_X = \"warning\"", ascii ""])).1 =
      ⟨some .json, true, [ascii ".js", ascii ".a#b=["], [ascii "build", ascii "lib"],
        [(ascii "JSC_X", .off), (ascii "JSC_X", .warning)]⟩ := by
  let c : Config := ⟨some .json, true, [ascii ".js", ascii ".a#b=["], [ascii "build", ascii "lib"],
    [(ascii "JSC_X", .off), (ascii "JSC_X", .warning)]⟩
  have ok : c.Writable :=
    ⟨by decide +kernel, by decide +kernel, by decide +kernel, by decide +kernel⟩
  have plain (s : Bytes) : Holds s s := by
    refine ⟨[], [], nofun, ⟨[], [], nofun, nofun, .inl rfl⟩, ?_⟩
    rw [List.nil_append, List.append_nil]
  have blank (b : UInt8) (hb : isBlank b) : Trails [b] :=
    ⟨[b], [], by simpa [Blanks] using hb, nofun, .inl rfl⟩
  have comment (note : Bytes) (hn : Byte.lineFeed ∉ note) :
      Trails (Byte.space :: Byte.hash :: note) :=
    ⟨[Byte.space], note, by decide, hn, .inr rfl⟩
  have spaced (key value : Bytes) : Assigns key value (key ++ ascii " = " ++ value) := by
    refine ⟨[Byte.space], [Byte.space], by decide, by decide, ?_⟩
    rw [List.append_assoc, List.append_assoc]
    rfl
  have extensions : Lists c.extensions (ascii ".js, .a#b=[") :=
    ⟨[ascii ".js", ascii " .a#b=["],
      .cons ⟨[], [], nofun, nofun, rfl⟩ (.cons ⟨[Byte.space], [], by decide, nofun, rfl⟩ .nil), rfl⟩
  have names : Lists [ascii "lib", ascii "build"] (ascii "lib,build") :=
    ⟨[ascii "lib", ascii "build"],
      .cons ⟨[], [], nofun, nofun, rfl⟩ (.cons ⟨[], [], nofun, nofun, rfl⟩ .nil), rfl⟩
  have format : Holds (ascii "format = \"json\"") (ascii "format = \"json\"\r") :=
    ⟨[], _, nofun, blank Byte.carriageReturn (by decide), rfl⟩
  have empty : Holds [] (ascii "\t") := ⟨[], _, nofun, blank Byte.tab (by decide), rfl⟩
  have raises : Holds (ascii "warnings-as-errors=true")
      (ascii "warnings-as-errors=true # \"on\"") :=
    ⟨[], _, nofun, comment (ascii " \"on\"") (by decide), rfl⟩
  have again : Holds [] (ascii " # again") :=
    ⟨[], _, nofun, comment (ascii " again") (by decide), rfl⟩
  have check : Body (c.settings (ascii ".js, .a#b=[") (ascii "lib,build")) _ :=
    .entry (spaced _ _) format <| .skip empty <|
      .entry ⟨[], [], nofun, nofun, rfl⟩ raises <|
      .entry (spaced _ _) (plain _) <| .entry (spaced _ _) (plain _) .nil
  have rules : Body c.ruleTexts _ :=
    .entry ⟨[Byte.tab], [Byte.space], by decide, by decide, rfl⟩ (plain _) <| .skip again <|
      .entry (spaced _ _) (plain _) <| .skip (plain _) .nil
  have header : Holds (ascii "[check]") (ascii "  [check] # of the checker") :=
    ⟨ascii "  ", _, by decide, comment (ascii " of the checker") (by decide), rfl⟩
  have lint : AreTables [ascii "[lint]", ascii "exclude = \"test\""] := by
    refine ⟨by decide +kernel, ?_⟩
    rintro line ⟨⟩
    exact ⟨[], ascii "lint]", nofun, rfl⟩
  have before : ∀ line ∈ [ascii "# settings", ascii "[package]", ascii "format = \"text\"",
      ascii ""], IsForeign line := by decide +kernel
  exact @parse_layout c ok ⟨_, before, _, header, _, extensions, _, by simp [c, or_comm], _, names,
    _, check, _, lint, _, plain (ascii "[check.rules]"), _, rules, [], ⟨nofun, nofun⟩⟩

end Config

end ModuleLint
