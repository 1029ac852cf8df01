import Mathlib.Order.Bounds.Defs
import ModuleLint.Log.Filter
import ModuleLint.Proofs.Bytes.Given

/-!
The levels that a filter gives to modules.

What a text means is told entry by entry, by what its bytes are: the last entry that names a module
gives its level, or else the last one about every module does, or else the level from before. A
filter that has read the text holds these levels and nothing of what it held before, and its least
level is the least of them.
-/

namespace ModuleLint

namespace LogLevel

lemma le_trans {a b c : LogLevel} (h : a ≤ b) (h' : b ≤ c) : a ≤ c := Int.le_trans h h'

lemma min_le_left (a b : LogLevel) : min a b ≤ a := by
  unfold min
  split
  · exact Int.le_refl _
  · exact (Int.le_total _ _).resolve_left ‹_›

lemma min_le_right (a b : LogLevel) : min a b ≤ b := by
  unfold min
  split
  · assumption
  · exact Int.le_refl _

lemma min_eq_or (a b : LogLevel) : min a b = a ∨ min a b = b := by
  unfold min
  split
  · exact .inl rfl
  · exact .inr rfl

lemma foldl_min_le (l : List LogLevel) (a : LogLevel) :
    l.foldl min a ≤ a ∧ ∀ b ∈ l, l.foldl min a ≤ b := by
  induction l generalizing a with
  | nil => exact ⟨Int.le_refl _, List.forall_mem_nil _⟩
  | cons b l ih =>
    obtain ⟨start, each⟩ := ih (min a b)
    exact ⟨le_trans start (min_le_left a b),
      List.forall_mem_cons.mpr ⟨le_trans start (min_le_right a b), each⟩⟩

lemma foldl_min_mem (l : List LogLevel) (a : LogLevel) : l.foldl min a = a ∨ l.foldl min a ∈ l := by
  induction l generalizing a with
  | nil => exact .inl rfl
  | cons b l ih =>
    rw [List.foldl_cons, List.mem_cons]
    obtain start | behind := ih (min a b)
    · rw [start]
      exact (min_eq_or a b).imp_right .inl
    · exact .inr (.inr behind)

end LogLevel

namespace LogFilter

/-! ### What an entry gives -/

/-- The entry gives a module a level: it is `module=level`, or the module alone, which asks for all
records. -/
def Names (module entry : Bytes) (level : LogLevel) : Prop :=
  Byte.equals ∉ module ∧
    ((∃ text, entry = module ++ Byte.equals :: text ∧ module ≠ ascii "*" ∧ level = .ofText text) ∨
      (entry = module ∧ module ≠ [] ∧ level = .trace))

/-- The entry gives a level to every module without an entry of its own: it is `*=level`. -/
def Spreads (entry : Bytes) (level : LogLevel) : Prop :=
  ∃ text, entry = ascii "*=" ++ text ∧ level = .ofText text

/-- The level that entries give a module, where modules without one had another level before. -/
def Gives (before : LogLevel) (entries : List Bytes) (module : Bytes) (level : LogLevel) : Prop :=
  LastGives (Names module) entries level ∨
    NoneGives (Names module) entries ∧ LastGivesOr Spreads before entries level

/-- The module and level of an entry that names a module. -/
def named? (entry : Bytes) : Option (Bytes × LogLevel) :=
  match entry.cut? Byte.equals with
  | some (module, text) => if module = ascii "*" then none else some (module, .ofText text)
  | none => if entry.isEmpty then none else some (entry, .trace)

/-- The level that an entry gives a module. -/
def level? (module entry : Bytes) : Option LogLevel :=
  (named? entry).bind fun (m, level) => if m = module then some level else none

/-- The level that an entry gives to every module without one of its own. -/
def spread? (entry : Bytes) : Option LogLevel :=
  (entry.cut? Byte.equals).bind fun (module, text) =>
    if module = ascii "*" then some (.ofText text) else none

section Entries

variable {f : LogFilter} {module : Bytes} {level : LogLevel}

lemma level?_eq_some_iff (module entry : Bytes) (level : LogLevel) :
    level? module entry = some level ↔ Names module entry level := by
  unfold level? named? Names
  by_cases equals : Byte.equals ∈ entry
  · obtain ⟨m, text, rfl, first⟩ := List.eq_append_cons_of_mem equals
    rw [Bytes.cut?_append first]
    dsimp only
    constructor
    · intro gives
      split_ifs at gives with star
      · cases gives
      · dsimp only [Option.bind_some] at gives
        split_ifs at gives with same
        subst same
        exact ⟨first, .inl ⟨text, rfl, star, (Option.some_inj.mp gives).symm⟩⟩
    · rintro ⟨first', ⟨text', split, other, rfl⟩ | ⟨alone, -, -⟩⟩
      · have cut := Bytes.cut?_append first text
        rw [split, Bytes.cut?_append first'] at cut
        cases cut
        rw [if_neg other]
        exact if_pos rfl
      · exact absurd equals (alone ▸ first')
  · rw [Bytes.cut?_eq_none equals]
    dsimp only
    constructor
    · intro gives
      split_ifs at gives with empty
      · cases gives
      · dsimp only [Option.bind_some] at gives
        split_ifs at gives with same
        subst same
        exact ⟨equals, .inr ⟨rfl, by simpa using empty, (Option.some_inj.mp gives).symm⟩⟩
    · rintro ⟨-, ⟨text, rfl, -, -⟩ | ⟨rfl, filled, rfl⟩⟩
      · simp at equals
      · rw [if_neg (by simpa using filled)]
        exact if_pos rfl

lemma spread?_eq_some_iff (entry : Bytes) (level : LogLevel) :
    spread? entry = some level ↔ Spreads entry level := by
  have star (text : Bytes) : (ascii "*=" ++ text).cut? Byte.equals = some (ascii "*", text) :=
    @Bytes.cut?_append Byte.equals (ascii "*") (by decide) text
  unfold spread? Spreads
  constructor
  · intro gives
    obtain ⟨⟨m, text⟩, cut, level⟩ := Option.bind_eq_some_iff.mp gives
    dsimp only at level
    split_ifs at level with same
    subst same
    have equals : Byte.equals ∈ entry := by
      by_contra none
      rw [Bytes.cut?_eq_none none] at cut
      cases cut
    obtain ⟨m', text', rfl, first⟩ := List.eq_append_cons_of_mem equals
    rw [Bytes.cut?_append first] at cut
    cases cut
    exact ⟨text, rfl, (Option.some_inj.mp level).symm⟩
  · rintro ⟨text, rfl, rfl⟩
    rw [star, Option.bind_some]
    exact if_pos rfl

/-! ### One more entry -/

lemma lookup_filter_ne {m : Bytes} (l : List (Bytes × LogLevel)) (other : module ≠ m) :
    (l.filter (·.1 != m)).lookup module = l.lookup module := by
  induction l with
  | nil => rfl
  | cons p l ih =>
    rw [List.lookup_cons]
    by_cases same : p.1 = m
    · have apart : (module == p.1) = false := beq_eq_false_iff_ne.mpr (same ▸ other)
      rw [List.filter_cons_of_neg (by simp [same]), ih, apart]
    · rw [List.filter_cons_of_pos (by simp [same]), List.lookup_cons, ih]

lemma lookup_setModule (f : LogFilter) (m module : Bytes) (level : LogLevel) :
    (f.setModule m level).modules.lookup module =
      (if m = module then some level else none).or (f.modules.lookup module) := by
  unfold setModule
  rw [List.lookup_cons]
  by_cases same : m = module
  · rw [if_pos same, same, BEq.rfl]
    rfl
  · rw [if_neg same, beq_eq_false_iff_ne.mpr (Ne.symm same)]
    exact lookup_filter_ne f.modules (Ne.symm same)

/-- An entry overrules what a module had and leaves the other modules alone. -/
lemma lookup_entry (f : LogFilter) (entry module : Bytes) :
    (f.entry entry).modules.lookup module =
      (level? module entry).or (f.modules.lookup module) := by
  unfold LogFilter.entry level? named?
  cases entry.cut? Byte.equals with
  | none =>
    dsimp only
    split
    · rfl
    · exact lookup_setModule f entry module .trace
  | some parts =>
    dsimp only
    split
    · rfl
    · exact lookup_setModule f parts.1 module (.ofText parts.2)

lemma default_entry (f : LogFilter) (entry : Bytes) :
    (f.entry entry).default = (spread? entry).getD f.default := by
  unfold LogFilter.entry spread?
  cases entry.cut? Byte.equals with
  | none =>
    dsimp only
    split <;> rfl
  | some parts =>
    rw [Option.bind_some]
    dsimp only
    split <;> rfl

/-! ### All entries -/

lemma lookup_foldl (entries : List Bytes) (f : LogFilter) (module : Bytes) :
    (entries.foldl LogFilter.entry f).modules.lookup module =
      (entries.filterMap (level? module)).getLast?.or (f.modules.lookup module) := by
  induction entries generalizing f with
  | nil => rfl
  | cons entry entries ih =>
    rw [List.foldl_cons, ih, lookup_entry, List.filterMap_cons]
    cases level? module entry with
    | none => rfl
    | some level =>
      rw [List.getLast?_cons]
      cases (entries.filterMap (level? module)).getLast? <;> rfl

lemma default_foldl (entries : List Bytes) (f : LogFilter) :
    (entries.foldl LogFilter.entry f).default =
      (entries.filterMap spread?).getLast?.getD f.default := by
  induction entries generalizing f with
  | nil => rfl
  | cons entry entries ih =>
    rw [List.foldl_cons, ih, default_entry, List.filterMap_cons]
    cases spread? entry with
    | none => rfl
    | some level =>
      rw [List.getLast?_cons]
      rfl

lemma lookup_parse_eq (f : LogFilter) (spec module : Bytes) :
    (f.parse spec).modules.lookup module =
      ((spec.splitOn Byte.comma).filterMap (level? module)).getLast? := by
  rw [parse, lookup_foldl]
  exact Option.or_none

/-- After a text is read, a module has a level of its own exactly if an entry names it. -/
lemma lookup_parse (f : LogFilter) (spec module : Bytes) (level : LogLevel) :
    (f.parse spec).modules.lookup module = some level ↔
      LastGives (Names module) (spec.splitOn Byte.comma) level := by
  rw [lookup_parse_eq, lastGives_iff (level?_eq_some_iff module)]

lemma default_parse (f : LogFilter) (spec : Bytes) (level : LogLevel) :
    (f.parse spec).default = level ↔
      LastGivesOr Spreads f.default (spec.splitOn Byte.comma) level := by
  rw [lastGivesOr_iff spread?_eq_some_iff, parse, default_foldl]
  rfl

lemma levelOf_parse (f : LogFilter) (spec module : Bytes) (level : LogLevel) :
    (f.parse spec).levelOf module = level ↔
      Gives f.default (spec.splitOn Byte.comma) module level := by
  unfold levelOf Gives
  rw [← lookup_parse, ← default_parse, noneGives_iff (level?_eq_some_iff module),
    ← lookup_parse_eq f]
  cases (f.parse spec).modules.lookup module with
  | none => simp
  | some own => simp

/-! ### The least level -/

/-- Each module stands once, with the level that it is given. -/
def IsTable (f : LogFilter) : Prop := ∀ p ∈ f.modules, f.modules.lookup p.1 = some p.2

lemma mem_of_lookup {f : LogFilter} (own : f.modules.lookup module = some level) :
    (module, level) ∈ f.modules := by
  obtain ⟨before, after, split, -⟩ := List.lookup_eq_some_iff.mp own
  rw [split]
  exact List.mem_append_right _ (List.mem_cons_self ..)

lemma IsTable.setModule (table : IsTable f) (m : Bytes) (level : LogLevel) :
    IsTable (f.setModule m level) := by
  intro p hp
  rw [lookup_setModule]
  obtain rfl | kept := List.mem_cons.mp hp
  · rw [if_pos rfl]
    rfl
  · obtain ⟨before, other⟩ := List.mem_filter.mp kept
    rw [if_neg (fun same => by simp [same] at other)]
    exact table p before

lemma IsTable.entry (table : IsTable f) (entry : Bytes) : IsTable (f.entry entry) := by
  unfold LogFilter.entry
  cases entry.cut? Byte.equals with
  | none =>
    dsimp only
    split
    · exact table
    · exact table.setModule entry .trace
  | some parts =>
    dsimp only
    split
    · exact table
    · exact table.setModule parts.1 (.ofText parts.2)

lemma isTable_uniform (level : LogLevel) : IsTable (uniform level) := List.forall_mem_nil _

lemma isTable_parse (f : LogFilter) (spec : Bytes) : IsTable (f.parse spec) :=
  List.foldlRecOn (spec.splitOn Byte.comma) LogFilter.entry (isTable_uniform f.default)
    fun _ table entry _ => table.entry entry

lemma minLevel_le_levelOf (f : LogFilter) (module : Bytes) : f.minLevel ≤ f.levelOf module := by
  obtain ⟨default, each⟩ := LogLevel.foldl_min_le (f.modules.map (·.2)) f.default
  unfold levelOf
  cases own : f.modules.lookup module with
  | none => exact default
  | some level => exact each level (List.mem_map.mpr ⟨_, mem_of_lookup own, rfl⟩)

/-- The least level is that of modules without an entry, or that of an entry. -/
lemma minLevel_eq_or (f : LogFilter) :
    f.minLevel = f.default ∨ ∃ p ∈ f.modules, f.minLevel = p.2 := by
  have least : f.minLevel = f.default ∨ f.minLevel ∈ f.modules.map (·.2) :=
    LogLevel.foldl_min_mem _ _
  refine least.imp_right fun mem => ?_
  obtain ⟨p, hp, level⟩ := List.mem_map.mp mem
  exact ⟨p, hp, level.symm⟩

end Entries

/-! ### What a filter takes after a text is read -/

/-- **The last entry about a module holds.** After a text is read, records of a module are taken
from the level on that the last entry naming the module gives, or else the last entry about every
module, or else what held before; entries of texts that were read earlier count for nothing. The
least level is the least of that of modules without an entry and those of the modules named, and so
lies above the level of no module. -/
theorem admits_parse (f : LogFilter) (spec : Bytes) :
    let entries := spec.splitOn Byte.comma
    let g := f.parse spec
    (∀ module, ∃ level, Gives f.default entries module level) ∧
    (∀ module level, Gives f.default entries module level →
      g.minLevel ≤ level ∧ ∀ l, g.admits l module = true ↔ level ≤ l) ∧
    (∀ f' : LogFilter, f'.default = f.default → f'.parse spec = g) ∧
    IsLeast {level | LastGivesOr Spreads f.default entries level ∨
      ∃ module, LastGives (Names module) entries level} g.minLevel := by
  intro entries g
  refine ⟨fun module => ⟨g.levelOf module, (levelOf_parse f spec module _).mp rfl⟩,
    fun module level gives => ?_, fun f' same => ?_, ?_, ?_⟩
  · have given : g.levelOf module = level := (levelOf_parse f spec module level).mpr gives
    refine ⟨given ▸ minLevel_le_levelOf g module, fun l => ?_⟩
    rw [admits, given, decide_eq_true_iff]
  · exact congrArg (fun level => entries.foldl LogFilter.entry (uniform level)) same
  · obtain default | ⟨⟨module, level⟩, mem, own⟩ := minLevel_eq_or g
    · exact .inl ((default_parse f spec _).mp default.symm)
    · have given := (lookup_parse f spec module level).mp (isTable_parse f spec _ mem)
      exact .inr ⟨module, own ▸ given⟩
  · rintro level (default | ⟨module, gives⟩)
    · rw [← (default_parse f spec level).mpr default]
      exact (LogLevel.foldl_min_le _ _).1
    · have own := (lookup_parse f spec module level).mpr gives
      have given : g.levelOf module = level := by rw [levelOf, own, Option.getD_some]
      exact given ▸ minLevel_le_levelOf g module

/-- `check` is named twice and `cli` not at all. -/
example :
    let f := (uniform .warn).parse (ascii "check=debug,*=error,check,parse=off,")
    [ascii "check", ascii "parse", ascii "cli"].map f.levelOf = [.trace, .off, .error] := by
  decide +kernel

end LogFilter

end ModuleLint
