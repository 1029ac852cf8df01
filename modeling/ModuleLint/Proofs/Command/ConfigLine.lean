import ModuleLint.Proofs.Bytes.Given
import ModuleLint.Proofs.Command.EffectiveLevels

/-!
What a line of a configuration file holds.

There may be blanks around the content of a line, and a comment behind it. `Holds` says so without
reading the line, and a line read back gives the content. What is inside double quotes is part of
the content, whatever it is.
-/

namespace ModuleLint

namespace Config

/-! ### Blanks -/

def Blanks (s : Bytes) : Prop := ∀ b ∈ s, isBlank b

/-- A text with no blank at either end. -/
structure IsTrimmed (s : Bytes) : Prop where
  head : ∀ b ∈ s.head?, ¬ isBlank b
  last : ∀ b ∈ s.getLast?, ¬ isBlank b

instance (s : Bytes) : Decidable (Blanks s) := decidable_of_iff (s.all isBlank) List.all_eq_true

lemma isTrimmed_iff {s : Bytes} :
    s.head?.all (!isBlank ·) ∧ s.getLast?.all (!isBlank ·) ↔ IsTrimmed s := by
  have all (o : Option UInt8) : o.all (!isBlank ·) ↔ ∀ b ∈ o, ¬ isBlank b := by cases o <;> simp
  rw [all, all]
  exact ⟨fun h => ⟨h.1, h.2⟩, fun h => ⟨h.head, h.last⟩⟩

instance (s : Bytes) : Decidable (IsTrimmed s) := decidable_of_iff _ isTrimmed_iff

variable {s t a b line content : Bytes} {sep : UInt8}

lemma blanks_nil : Blanks [] := nofun

lemma Blanks.not_mem (h : Blanks s) (hs : isBlank sep = false) : sep ∉ s := by
  intro mem
  rw [h sep mem] at hs
  cases hs

lemma Blanks.dropWhile_append (h : Blanks s) (t : Bytes) :
    (s ++ t).dropWhile isBlank = t.dropWhile isBlank :=
  List.dropWhile_append_of_pos h

lemma dropWhile_of_head (h : ∀ b ∈ s.head?, ¬ isBlank b) : s.dropWhile isBlank = s := by
  cases s with
  | nil => rfl
  | cons b s => exact List.dropWhile_cons_of_neg (h b rfl)

/-- Blanks around a text are taken off. -/
lemma trim_around (h : IsTrimmed s) (ha : Blanks a) (hb : Blanks b) : trim (a ++ s ++ b) = s := by
  have front : (a ++ s ++ b).dropWhile isBlank = (s ++ b).dropWhile isBlank := by
    rw [List.append_assoc, ha.dropWhile_append]
  have back : Bytes.dropEndWhile isBlank (s ++ b) = s := by
    have hb : Blanks b.reverse := fun x hx => hb x (List.mem_reverse.mp hx)
    have hs : ∀ x ∈ s.reverse.head?, ¬ isBlank x := by
      rw [List.head?_reverse]
      exact h.last
    rw [Bytes.dropEndWhile, List.reverse_append, hb.dropWhile_append, dropWhile_of_head hs,
      List.reverse_reverse]
  rw [trim, front]
  cases s with
  | nil =>
    rw [← List.append_nil b, List.nil_append, hb.dropWhile_append]
    rfl
  | cons x s =>
    have starts : ∀ y ∈ (x :: s ++ b).head?, ¬ isBlank y := h.head
    rw [dropWhile_of_head starts, back]

lemma exists_blanks (s : Bytes) : ∃ a, Blanks a ∧ s = a ++ s.dropWhile isBlank :=
  ⟨s.takeWhile isBlank, List.all_eq_true.mp List.all_takeWhile,
    List.takeWhile_append_dropWhile.symm⟩

/-- There are blanks around what a text is trimmed to. -/
lemma exists_trim (s : Bytes) : ∃ a b, Blanks a ∧ Blanks b ∧ s = a ++ trim s ++ b := by
  obtain ⟨a, ha, front⟩ := exists_blanks s
  obtain ⟨b, hb, back⟩ := exists_blanks (s.dropWhile isBlank).reverse
  refine ⟨a, b.reverse, ha, fun x hx => hb x (List.mem_reverse.mp hx), ?_⟩
  have back : s.dropWhile isBlank = trim s ++ b.reverse := by
    rw [← List.reverse_reverse (s.dropWhile isBlank), back, List.reverse_append]
    simp [trim, Bytes.dropEndWhile]
  rw [List.append_assoc, ← back]
  exact front

/-! ### Comments -/

/-- A text in double quotes. -/
def quoted (s : Bytes) : Bytes := Byte.doubleQuote :: s ++ [Byte.doubleQuote]

/-- A text that no comment starts in, with all its quoted parts closed. -/
def Closed (s : Bytes) : Prop :=
  ∀ rest, withoutComment false (s ++ rest) = s ++ withoutComment false rest

lemma withoutComment_append {inQuotes : Bool} (quote : Byte.doubleQuote ∉ s)
    (hash : inQuotes ∨ Byte.hash ∉ s) (rest : Bytes) :
    withoutComment inQuotes (s ++ rest) = s ++ withoutComment inQuotes rest := by
  induction s with
  | nil => rfl
  | cons b s ih =>
    rw [List.mem_cons, not_or] at quote
    have inside : ¬ (b = Byte.hash ∧ ¬ inQuotes) := by
      rintro ⟨rfl, out⟩
      exact hash.elim out (· List.mem_cons_self)
    have rest := ih quote.2 (hash.imp_right fun no mem => no (List.mem_cons_of_mem _ mem))
    rw [List.cons_append, withoutComment, if_neg (Ne.symm quote.1), if_neg inside, rest,
      List.cons_append]

lemma closed_of_plain (quote : Byte.doubleQuote ∉ s) (hash : Byte.hash ∉ s) : Closed s :=
  withoutComment_append quote (.inr hash)

lemma Closed.append (hs : Closed s) (ht : Closed t) : Closed (s ++ t) := by
  intro rest
  calc withoutComment false (s ++ t ++ rest) = s ++ withoutComment false (t ++ rest) := by
        rw [List.append_assoc, hs]
    _ = s ++ t ++ withoutComment false rest := by rw [ht, List.append_assoc]

lemma Blanks.closed (h : Blanks s) : Closed s :=
  closed_of_plain (h.not_mem (by decide)) (h.not_mem (by decide))

lemma closed_quoted (h : Byte.doubleQuote ∉ s) : Closed (quoted s) := by
  intro rest
  have inside : withoutComment true (s ++ Byte.doubleQuote :: rest) =
      s ++ withoutComment true (Byte.doubleQuote :: rest) := withoutComment_append h (.inl rfl) _
  simp [quoted, withoutComment, inside]

/-- What may stand behind the content of a line: blanks, and a comment. -/
def Trails (s : Bytes) : Prop :=
  ∃ a note, Blanks a ∧ Byte.lineFeed ∉ note ∧ (s = a ∨ s = a ++ Byte.hash :: note)

/-- A line with some content, and blanks and a comment around it. -/
def Holds (content line : Bytes) : Prop :=
  ∃ before after, Blanks before ∧ Trails after ∧ line = before ++ content ++ after

/-- The content of a line is read back. -/
lemma Holds.read (h : Holds content line) (closed : Closed content) (trimmed : IsTrimmed content) :
    trim (withoutComment false line) = content := by
  obtain ⟨before, after, hb, ⟨a, note, ha, -, hafter⟩, rfl⟩ := h
  have rest : withoutComment false after = a := by
    rcases hafter with rfl | rfl
    · rw [← List.append_nil after, ha.closed]
      rfl
    · rw [ha.closed]
      exact List.append_nil a
  rw [(hb.closed.append closed) after, rest]
  exact trim_around trimmed hb ha

lemma Holds.oneLine (h : Holds content line) (hc : Byte.lineFeed ∉ content) :
    Byte.lineFeed ∉ line := by
  obtain ⟨before, after, hb, ⟨a, note, ha, hnote, hafter⟩, rfl⟩ := h
  have noLineFeed : isBlank Byte.lineFeed = false := by decide
  have inBefore := hb.not_mem noLineFeed
  have inAfter := ha.not_mem noLineFeed
  have noHash : Byte.lineFeed ≠ Byte.hash := by decide
  rcases hafter with rfl | rfl <;> simp [inBefore, inAfter, hc, hnote, noHash]

lemma exists_comment (inQuotes : Bool) (s : Bytes) :
    ∃ note, s = withoutComment inQuotes s ++ note ∧ ∀ b ∈ note.head?, b = Byte.hash := by
  induction s generalizing inQuotes with
  | nil => exact ⟨[], rfl, nofun⟩
  | cons b s ih =>
    unfold withoutComment
    split
    · obtain ⟨note, hs, starts⟩ := ih (!inQuotes)
      exact ⟨note, congrArg (b :: ·) hs, starts⟩
    split
    next hash => exact ⟨b :: s, rfl, by simp [hash.1]⟩
    next =>
      obtain ⟨note, hs, starts⟩ := ih inQuotes
      exact ⟨note, congrArg (b :: ·) hs, starts⟩

/-- A line holds what is read in it. -/
lemma holds_read (h : Byte.lineFeed ∉ line) : Holds (trim (withoutComment false line)) line := by
  obtain ⟨note, hline, starts⟩ := exists_comment false line
  obtain ⟨a, b, ha, hb, within⟩ := exists_trim (withoutComment false line)
  refine ⟨a, b ++ note, ha, ?_, ?_⟩
  · cases note with
    | nil => exact ⟨b, [], hb, nofun, .inl (List.append_nil b)⟩
    | cons x note =>
      obtain rfl := starts x rfl
      refine ⟨b, note, hb, fun mem => h ?_, .inr rfl⟩
      rw [hline]
      simp [mem]
  · rw [← List.append_assoc, ← within]
    exact hline

/-! ### Entries -/

/-- A text that can be a key. -/
structure IsKey (s : Bytes) : Prop where
  ne_nil : s ≠ []
  trimmed : IsTrimmed s
  noEquals : Byte.equals ∉ s
  noHash : Byte.hash ∉ s
  noQuote : Byte.doubleQuote ∉ s
  oneLine : Byte.lineFeed ∉ s
  noBracket : s.head? ≠ some Byte.openBracket

instance (s : Bytes) : Decidable (IsKey s) :=
  decidable_of_iff (s ≠ [] ∧ IsTrimmed s ∧ Byte.equals ∉ s ∧ Byte.hash ∉ s ∧
      Byte.doubleQuote ∉ s ∧ Byte.lineFeed ∉ s ∧ s.head? ≠ some Byte.openBracket)
    ⟨fun ⟨ne_nil, trimmed, noEquals, noHash, noQuote, oneLine, noBracket⟩ =>
        ⟨ne_nil, trimmed, noEquals, noHash, noQuote, oneLine, noBracket⟩,
      fun h => ⟨h.ne_nil, h.trimmed, h.noEquals, h.noHash, h.noQuote, h.oneLine, h.noBracket⟩⟩

/-- A text that can be a value, with its quotes. -/
structure IsValue (s : Bytes) : Prop where
  ne_nil : s ≠ []
  trimmed : IsTrimmed s
  closed : Closed s
  oneLine : Byte.lineFeed ∉ s

/-- The content of a line that gives a key a value, with blanks around the equals sign. -/
def Assigns (key value content : Bytes) : Prop :=
  ∃ a b, Blanks a ∧ Blanks b ∧ content = key ++ a ++ Byte.equals :: (b ++ value)

variable {key value : Bytes}

lemma isValue_quoted (quote : Byte.doubleQuote ∉ s) (oneLine : Byte.lineFeed ∉ s) :
    IsValue (quoted s) where
  ne_nil := by simp [quoted]
  trimmed := by
    have noBlank : isBlank Byte.doubleQuote = false := by decide
    constructor
    · simp [quoted, noBlank]
    · rw [quoted, List.getLast?_concat]
      simp [noBlank]
  closed := closed_quoted quote
  oneLine := by
    have noQuote : Byte.lineFeed ≠ Byte.doubleQuote := by decide
    simp [quoted, oneLine, noQuote]

lemma unquoted_quoted (s : Bytes) : unquoted (quoted s) = s := by
  simp [unquoted, quoted]

namespace Assigns

variable (h : Assigns key value content) (hk : IsKey key) (hv : IsValue value)
include h

include hk hv in
lemma isTrimmed : IsTrimmed content := by
  obtain ⟨a, b, -, -, rfl⟩ := h
  constructor
  · rw [List.append_assoc, List.head?_append_of_ne_nil _ hk.ne_nil]
    exact hk.trimmed.head
  · have last : (key ++ a ++ Byte.equals :: (b ++ value)).getLast? = value.getLast? := by
      rw [← List.cons_append, ← List.append_assoc, List.getLast?_append_of_ne_nil _ hv.ne_nil]
    rw [last]
    exact hv.trimmed.last

include hk hv in
lemma closed : Closed content := by
  obtain ⟨a, b, ha, hb, rfl⟩ := h
  have equals : Closed [Byte.equals] := closed_of_plain (by decide) (by decide)
  have key := closed_of_plain hk.noQuote hk.noHash
  have both := ((key.append ha.closed).append equals).append (hb.closed.append hv.closed)
  rwa [List.append_assoc _ [Byte.equals]] at both

include hk hv in
lemma oneLine : Byte.lineFeed ∉ content := by
  obtain ⟨a, b, ha, hb, rfl⟩ := h
  have noLineFeed : isBlank Byte.lineFeed = false := by decide
  have noEquals : Byte.lineFeed ≠ Byte.equals := by decide
  simp [hk.oneLine, hv.oneLine, ha.not_mem noLineFeed, hb.not_mem noLineFeed, noEquals]

include hk in
lemma noHeader : content.head? ≠ some Byte.openBracket := by
  obtain ⟨a, b, -, -, rfl⟩ := h
  rw [List.append_assoc, List.head?_append_of_ne_nil _ hk.ne_nil]
  exact hk.noBracket

include hk hv in
lemma entry {table : Table} (proper : table ≠ .other) :
    Entry.ofLine? table content = some ⟨table, key, unquoted value⟩ := by
  obtain ⟨a, b, ha, hb, rfl⟩ := h
  have noEquals : Byte.equals ∉ key ++ a := by
    simp [hk.noEquals, ha.not_mem (show isBlank Byte.equals = false by decide)]
  have readKey : trim (key ++ a) = key := trim_around hk.trimmed blanks_nil ha
  have readValue : trim (b ++ value) = value := by
    have around := trim_around hv.trimmed hb blanks_nil
    rwa [List.append_nil] at around
  rw [Entry.ofLine?, if_neg proper, Bytes.cut?_append noEquals]
  simp only [Option.map_some, readKey, readValue]

end Assigns

/-! ### Lists and sets -/

/-- An item of a list. -/
structure IsItem (s : Bytes) : Prop where
  ne_nil : s ≠ []
  trimmed : IsTrimmed s
  noComma : Byte.comma ∉ s
  noQuote : Byte.doubleQuote ∉ s
  oneLine : Byte.lineFeed ∉ s

instance (s : Bytes) : Decidable (IsItem s) :=
  decidable_of_iff (s ≠ [] ∧ IsTrimmed s ∧ Byte.comma ∉ s ∧ Byte.doubleQuote ∉ s ∧
      Byte.lineFeed ∉ s)
    ⟨fun ⟨ne_nil, trimmed, noComma, noQuote, oneLine⟩ =>
        ⟨ne_nil, trimmed, noComma, noQuote, oneLine⟩,
      fun h => ⟨h.ne_nil, h.trimmed, h.noComma, h.noQuote, h.oneLine⟩⟩

/-- A text with blanks around it. -/
def Padded (s t : Bytes) : Prop := ∃ a b, Blanks a ∧ Blanks b ∧ t = a ++ s ++ b

/-- A text that lists some items: it has commas between them, and may have blanks around them. -/
def Lists (l : List Bytes) (s : Bytes) : Prop :=
  ∃ parts, List.Forall₂ Padded l parts ∧ s = Bytes.join [Byte.comma] parts

lemma map_trim {l parts : List Bytes} (h : List.Forall₂ Padded l parts)
    (hl : ∀ s ∈ l, IsTrimmed s) : parts.map trim = l := by
  induction h with
  | nil => rfl
  | cons padded rest ih =>
    obtain ⟨first, others⟩ := List.forall_mem_cons.mp hl
    obtain ⟨a, b, ha, hb, rfl⟩ := padded
    rw [List.map_cons, ih others, trim_around first ha hb]

lemma not_mem_parts {l parts : List Bytes} (h : List.Forall₂ Padded l parts)
    (hs : isBlank sep = false) (hl : ∀ s ∈ l, sep ∉ s) : ∀ t ∈ parts, sep ∉ t := by
  induction h with
  | nil => nofun
  | cons padded rest ih =>
    obtain ⟨first, others⟩ := List.forall_mem_cons.mp hl
    obtain ⟨a, b, ha, hb, rfl⟩ := padded
    refine List.forall_mem_cons.mpr ⟨?_, ih others⟩
    simp [ha.not_mem hs, hb.not_mem hs, first]

/-- A byte of a list is the comma or in one of its parts. -/
lemma not_mem_join {parts : List Bytes} (hs : sep ≠ Byte.comma) (h : ∀ t ∈ parts, sep ∉ t) :
    sep ∉ Bytes.join [Byte.comma] parts := by
  induction parts with
  | nil => simp [Bytes.join]
  | cons t parts ih =>
    obtain ⟨first, others⟩ := List.forall_mem_cons.mp h
    cases parts with
    | nil => simpa [Bytes.join] using first
    | cons u parts => simpa [Bytes.join, List.intercalate, first, hs] using ih others

namespace Lists

variable {l : List Bytes} (h : Lists l s) (hl : ∀ t ∈ l, IsItem t)
include h hl

/-- The items of a list are read back. -/
lemma items_eq : items s = l := by
  obtain ⟨parts, padded, rfl⟩ := h
  have trimmed := map_trim padded fun t ht => (hl t ht).trimmed
  have noComma := not_mem_parts padded (by decide) fun t ht => (hl t ht).noComma
  have filled : l.filter (!·.isEmpty) = l := List.filter_eq_self.mpr fun t ht => by
    simp [(hl t ht).ne_nil]
  unfold items Bytes.join
  by_cases empty : parts = []
  · subst empty
    cases padded
    decide
  · rw [List.splitOn_intercalate _ noComma empty, trimmed, filled]

lemma isValue : IsValue (quoted s) := by
  obtain ⟨parts, padded, rfl⟩ := h
  refine isValue_quoted (not_mem_join (by decide) ?_) (not_mem_join (by decide) ?_)
  · exact not_mem_parts padded (by decide) fun t ht => (hl t ht).noQuote
  · exact not_mem_parts padded (by decide) fun t ht => (hl t ht).oneLine

end Lists

lemma mem_insertName {name other : Bytes} {set : List Bytes} :
    other ∈ insertName name set ↔ other = name ∨ other ∈ set := by
  induction set with
  | nil => simp [insertName]
  | cons first rest ih =>
    unfold insertName
    split
    next same => simp [same]
    split
    · simp
    · simp only [List.mem_cons, ih]
      exact or_left_comm

lemma sorted_insertName {set : List Bytes} (h : set.Pairwise (· < ·)) (name : Bytes) :
    (insertName name set).Pairwise (· < ·) := by
  induction set with
  | nil => simp [insertName]
  | cons first rest ih =>
    obtain ⟨least, sorted⟩ := List.pairwise_cons.mp h
    unfold insertName
    split
    · exact h
    split
    next before =>
      refine List.pairwise_cons.mpr ⟨fun other mem => ?_, h⟩
      rcases List.mem_cons.mp mem with rfl | mem
      · exact before
      · exact List.lt_trans before (least other mem)
    next differs after =>
      refine List.pairwise_cons.mpr ⟨fun other mem => ?_, ih sorted⟩
      rcases mem_insertName.mp mem with rfl | mem
      · rcases Collector.file_trichotomy first other with lt | eq | gt
        · exact lt
        · exact absurd eq.symm differs
        · exact absurd gt after
      · exact least other mem

lemma mem_foldl_insertName {names set : List Bytes} {other : Bytes} :
    other ∈ names.foldl (fun set name => insertName name set) set ↔
      other ∈ names ∨ other ∈ set := by
  induction names generalizing set with
  | nil => simp
  | cons name names ih =>
    rw [List.foldl_cons, ih, mem_insertName, List.mem_cons, or_assoc]
    exact or_left_comm

lemma sorted_foldl_insertName {set : List Bytes} (h : set.Pairwise (· < ·)) (names : List Bytes) :
    (names.foldl (fun set name => insertName name set) set).Pairwise (· < ·) := by
  induction names generalizing set with
  | nil => exact h
  | cons name names ih => exact ih (sorted_insertName h name)

/-- A set is read back from its members in any order. -/
lemma nameSet_eq {names set : List Bytes} (sorted : set.Pairwise (· < ·))
    (same : ∀ name, name ∈ names ↔ name ∈ set) : nameSet names = set := by
  have sortedNames : (nameSet names).Pairwise (· < ·) := sorted_foldl_insertName .nil names
  have nodup {l : List Bytes} (h : l.Pairwise (· < ·)) : l.Nodup := by
    refine List.Pairwise.imp ?_ h
    rintro a _ lt rfl
    exact List.lt_irrefl _ lt
  have perm : (nameSet names).Perm set :=
    (List.perm_ext_iff_of_nodup (nodup sortedNames) (nodup sorted)).mpr fun name => by
      rw [nameSet, mem_foldl_insertName, same]
      simp
  exact perm.eq_of_pairwise (fun a b _ _ ab ba => absurd (List.lt_trans ab ba) (List.lt_irrefl _))
    sortedNames sorted

end Config

end ModuleLint
