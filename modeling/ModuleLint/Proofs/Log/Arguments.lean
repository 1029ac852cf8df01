import Mathlib.Data.List.Induction
import Mathlib.Order.Bounds.Defs
import ModuleLint.Command.Settings
import ModuleLint.Proofs.Bytes.Given

/-!
Arguments about the log.

What an argument gives the log is told by its bytes, and it gives one thing at most. So the reading
of the arguments keeps the last of each kind that they give, and the greatest verbosity; the options
are made of these and of one variable. The command passes over the same arguments, those apart that
ask for errors only, which are about both.
-/

namespace ModuleLint

namespace LogOptions

/-! ### What an argument gives -/

/-- The argument gives a level: `--log-level=` with the name of one, or one of the two arguments
that ask for errors only. -/
def GivesLevel (arg : Bytes) (level : LogLevel) : Prop :=
  (∃ text, arg = ascii "--log-level=" ++ text ∧ level = .ofText text) ∨
    ((arg = ascii "-q" ∨ arg = ascii "--quiet") ∧ level = .error)

def GivesFilter (arg spec : Bytes) : Prop := arg = ascii "--log-filter=" ++ spec

def GivesFile (arg path : Bytes) : Prop := arg = ascii "--log-file=" ++ path

def GivesFormat (arg : Bytes) (format : LogFormat) : Prop :=
  ∃ text, arg = ascii "--log-format=" ++ text ∧
    format = if text = ascii "json" ∨ text = ascii "JSON" then .json else .text

/-- The argument asks for more records: `--verbose` once, `-v` with as many letters as it has. -/
def GivesVerbosity (arg : Bytes) (n : Nat) : Prop :=
  (arg = ascii "--verbose" ∧ n = 1) ∨ (0 < n ∧ arg = byte '-' :: List.replicate n (byte 'v'))

/-- The level and the filter that arguments and the text of the variable give. -/
inductive Decides (args : List Bytes) (text : Bytes) : LogLevel → Bytes → Prop
  | level {level : LogLevel} {filter : Bytes} (given : LastGives GivesLevel args level)
      (filtered : LastGivesOr GivesFilter [] args filter) : Decides args text level filter
  | verbosity {n : Nat} {filter : Bytes} (noLevel : NoneGives GivesLevel args)
      (greatest : IsGreatest {n | ∃ arg ∈ args, GivesVerbosity arg n} n)
      (filtered : LastGivesOr GivesFilter [] args filter) :
      Decides args text (if n = 1 then .info else if n = 2 then .debug else .trace) filter
  | filter {filter : Bytes} (noLevel : NoneGives GivesLevel args)
      (noVerbosity : NoneGives GivesVerbosity args) (given : LastGives GivesFilter args filter) :
      Decides args text .warn filter
  | variableFilter (noLevel : NoneGives GivesLevel args)
      (noVerbosity : NoneGives GivesVerbosity args) (noFilter : NoneGives GivesFilter args)
      (filters : Byte.equals ∈ text ∨ Byte.comma ∈ text) : Decides args text .warn text
  | variableLevel (noLevel : NoneGives GivesLevel args)
      (noVerbosity : NoneGives GivesVerbosity args) (noFilter : NoneGives GivesFilter args)
      (set : text ≠ []) (noEquals : Byte.equals ∉ text) (noComma : Byte.comma ∉ text) :
      Decides args text (.ofText text) []
  | nothing (noLevel : NoneGives GivesLevel args) (noVerbosity : NoneGives GivesVerbosity args)
      (noFilter : NoneGives GivesFilter args) (unset : text = []) : Decides args text .warn []

/-- The options that arguments and the text of the variable describe. -/
structure Describes (args : List Bytes) (text : Bytes) (o : LogOptions) : Prop where
  decides : Decides args text o.level o.filter
  file : LastGivesOr GivesFile [] args o.file
  format : LastGivesOr GivesFormat .text args o.format
  shown : o.console = true ∧ o.colours = true

/-- What an argument says about the log. -/
inductive Choice
  | level (level : LogLevel)
  | filter (spec : Bytes)
  | file (path : Bytes)
  | format (format : LogFormat)
  /-- Asks for more records, the more the higher the count. -/
  | verbose (count : Nat)

/-- What an argument says about the log, if it is about the log. -/
def Chooses (arg : Bytes) : Choice → Prop
  | .level level => GivesLevel arg level
  | .filter spec => GivesFilter arg spec
  | .file path => GivesFile arg path
  | .format format => GivesFormat arg format
  | .verbose n => GivesVerbosity arg n

/-- The choice that an argument makes for the log, by the first form that it has. -/
def given? (arg : Bytes) : Option Choice :=
  ((after? (ascii "--log-level=") arg).map (.level ∘ .ofText)) <|>
  ((after? (ascii "--log-filter=") arg).map .filter) <|>
  ((after? (ascii "--log-file=") arg).map .file) <|>
  ((after? (ascii "--log-format=") arg).map fun name =>
    .format (if name = ascii "json" ∨ name = ascii "JSON" then .json else .text)) <|>
  (if isQuiet arg then some (.level .error) else none) <|>
  (if arg = ascii "--verbose" then some (.verbose 1) else none) <|>
  (if 0 < verbosityCount arg then some (.verbose (verbosityCount arg)) else none)

section Choices

variable {α : Type} {arg start rest : Bytes}

lemma after?_eq_some_iff : after? start arg = some rest ↔ arg = start ++ rest := by
  unfold after?
  constructor
  · intro behind
    split at behind
    case isTrue starts =>
      obtain ⟨rest', rfl⟩ := List.isPrefixOf_iff_prefix.mp starts
      rw [List.drop_left, Option.some_inj] at behind
      rw [behind]
    case isFalse => cases behind
  · rintro rfl
    rw [if_pos (List.isPrefixOf_iff_prefix.mpr (List.prefix_append _ _)), List.drop_left]

lemma isSome_after? (start arg : Bytes) : (after? start arg).isSome = start.isPrefixOf arg := by
  unfold after?
  split
  case isTrue starts => exact starts.symm
  case isFalse other => exact (Bool.not_eq_true _ ▸ other).symm

/-- Letters are counted if there is nothing else behind the dash. -/
lemma verbosityCount_eq_iff {n : Nat} (positive : 0 < n) :
    verbosityCount arg = n ↔ arg = byte '-' :: List.replicate n (byte 'v') := by
  constructor
  · rintro rfl
    revert positive
    fun_cases verbosityCount arg with
    | case2 dash letter letters form all =>
      intro
      obtain ⟨dashed, -⟩ := not_or.mp form
      have same : letter :: letters = List.replicate (letters.length + 1) (byte 'v') :=
        List.eq_replicate_iff.mpr
          ⟨rfl, fun b hb => eq_of_beq (List.all_eq_true.mp all b hb)⟩
      rw [← same, not_ne_iff.mp dashed]
    | _ => exact fun positive => absurd positive (Nat.lt_irrefl 0)
  · rintro rfl
    obtain ⟨n, rfl⟩ := Nat.exists_eq_add_of_le' positive
    rw [List.replicate_succ, verbosityCount, if_neg (by decide), ← List.replicate_succ,
      if_pos (by simp), List.length_replicate]

lemma verbosity_pos {n : Nat} (h : GivesVerbosity arg n) : 0 < n := by
  obtain ⟨-, rfl⟩ | ⟨positive, -⟩ := h
  · exact Nat.one_pos
  · exact positive

lemma isQuiet_iff : isQuiet arg = true ↔ arg = ascii "-q" ∨ arg = ascii "--quiet" := by
  rw [isQuiet, Bool.or_eq_true, beq_iff_eq, beq_iff_eq]

lemma eq_or_of_orElse {o o' : Option α} {a : α} (h : (o <|> o') = some a) :
    o = some a ∨ o' = some a := by
  cases o with
  | none => exact .inr h
  | some b => exact .inl h

/-- What is read off an argument is one of seven forms. -/
lemma chooses_of_given? {c : Choice} (given : given? arg = some c) : Chooses arg c := by
  unfold given? at given
  obtain level | given := eq_or_of_orElse given
  · obtain ⟨text, form, rfl⟩ := Option.map_eq_some_iff.mp level
    exact .inl ⟨text, after?_eq_some_iff.mp form, rfl⟩
  obtain filter | given := eq_or_of_orElse given
  · obtain ⟨spec, form, rfl⟩ := Option.map_eq_some_iff.mp filter
    exact after?_eq_some_iff.mp form
  obtain file | given := eq_or_of_orElse given
  · obtain ⟨path, form, rfl⟩ := Option.map_eq_some_iff.mp file
    exact after?_eq_some_iff.mp form
  obtain format | given := eq_or_of_orElse given
  · obtain ⟨text, form, rfl⟩ := Option.map_eq_some_iff.mp format
    exact ⟨text, after?_eq_some_iff.mp form, rfl⟩
  obtain quiet | given := eq_or_of_orElse given
  · obtain ⟨form, ⟨⟩⟩ := Option.ite_none_right_eq_some.mp quiet
    exact .inr ⟨isQuiet_iff.mp form, rfl⟩
  obtain verbose | count := eq_or_of_orElse given
  · obtain ⟨form, ⟨⟩⟩ := Option.ite_none_right_eq_some.mp verbose
    exact .inl ⟨form, rfl⟩
  · obtain ⟨positive, ⟨⟩⟩ := Option.ite_none_right_eq_some.mp count
    exact .inr ⟨positive, (verbosityCount_eq_iff positive).mp rfl⟩

/-- No letters behind a dash ask for errors only, and none start another option. -/
lemma given?_letters (letters : Bytes) :
    given? (byte '-' :: byte 'v' :: letters) =
      if 0 < verbosityCount (byte '-' :: byte 'v' :: letters) then
        some (.verbose (verbosityCount (byte '-' :: byte 'v' :: letters)))
      else none := rfl

lemma given?_eq_some_iff (arg : Bytes) (c : Choice) : given? arg = some c ↔ Chooses arg c := by
  refine ⟨chooses_of_given?, fun chooses => ?_⟩
  cases c with
  | level level => obtain ⟨text, rfl, rfl⟩ | ⟨rfl | rfl, rfl⟩ := chooses <;> rfl
  | filter spec =>
    obtain rfl := chooses
    rfl
  | file path =>
    obtain rfl := chooses
    rfl
  | format format =>
    obtain ⟨text, rfl, rfl⟩ := chooses
    rfl
  | verbose n =>
    obtain ⟨rfl, rfl⟩ | ⟨positive, form⟩ := chooses
    · rfl
    · obtain ⟨n, rfl⟩ := Nat.exists_eq_add_of_le' positive
      have count := (verbosityCount_eq_iff positive).mpr form
      rw [List.replicate_succ] at form
      rw [form, given?_letters, ← form, count, if_pos positive]

/-- The recogniser and the reader agree on what is about the log. -/
lemma isSome_given? (arg : Bytes) : (given? arg).isSome = (isLogOption arg || isQuiet arg) := by
  have isSome_if {p : Prop} [Decidable p] (c : Choice) :
      (if p then some c else none).isSome = decide p := by
    by_cases h : p <;> simp [h]
  simp only [given?, isLogOption, Option.orElse_eq_orElse, Option.orElse_eq_or, Option.isSome_or,
    Option.isSome_map, isSome_after?, isSome_if, Bool.decide_eq_true, beq_eq_decide]
  ac_rfl

end Choices

/-! ### What the last argument gives -/

namespace Choice

def level? : Choice → Option LogLevel
  | .level v => some v
  | _ => none

def filter? : Choice → Option Bytes
  | .filter v => some v
  | _ => none

def file? : Choice → Option Bytes
  | .file v => some v
  | _ => none

def format? : Choice → Option LogFormat
  | .format v => some v
  | _ => none

def verbosity? : Choice → Option Nat
  | .verbose n => some n
  | _ => none

end Choice

/-- A part of a choice is what an argument gives, if it makes such a choice. -/
def IsPart {α : Type} (part : Choice → Option α) (gives : Bytes → α → Prop) : Prop :=
  ∀ arg a, (∃ c, Chooses arg c ∧ part c = some a) ↔ gives arg a

lemma isPart_of {α : Type} {part : Choice → Option α} (make : α → Choice)
    (only : ∀ c a, part c = some a ↔ c = make a) :
    IsPart part fun arg a => Chooses arg (make a) := by
  intro arg a
  constructor
  · rintro ⟨c, chooses, is⟩
    exact (only c a).mp is ▸ chooses
  · exact fun chooses => ⟨make a, chooses, (only (make a) a).mpr rfl⟩

lemma isPart_level : IsPart Choice.level? GivesLevel :=
  isPart_of .level fun c a => by cases c <;> simp [Choice.level?]

lemma isPart_filter : IsPart Choice.filter? GivesFilter :=
  isPart_of .filter fun c a => by cases c <;> simp [Choice.filter?]

lemma isPart_file : IsPart Choice.file? GivesFile :=
  isPart_of .file fun c a => by cases c <;> simp [Choice.file?]

lemma isPart_format : IsPart Choice.format? GivesFormat :=
  isPart_of .format fun c a => by cases c <;> simp [Choice.format?]

lemma isPart_verbosity : IsPart Choice.verbosity? GivesVerbosity :=
  isPart_of .verbose fun c a => by cases c <;> simp [Choice.verbosity?]

section Last

variable {α : Type} {part : Choice → Option α} {gives : Bytes → α → Prop} {args : List Bytes}
  {a otherwise : α}

lemma IsPart.reads (h : IsPart part gives) (arg : Bytes) (a : α) :
    (given? arg).bind part = some a ↔ gives arg a := by
  rw [Option.bind_eq_some_iff, ← h arg a]
  exact exists_congr fun c => and_congr_left fun _ => given?_eq_some_iff arg c

/-- The parts of what arguments give. -/
def parts (part : Choice → Option α) (args : List Bytes) : List α :=
  args.filterMap fun arg => (given? arg).bind part

lemma parts_concat (part : Choice → Option α) (args : List Bytes) (arg : Bytes) :
    parts part (args ++ [arg]) = parts part args ++ ((given? arg).bind part).toList := by
  rw [parts, List.filterMap_append]
  cases given : (given? arg).bind part <;> simp [parts, given]

lemma IsPart.last (h : IsPart part gives) :
    (parts part args).getLast? = some a ↔ LastGives gives args a := by
  rw [parts, lastGives_iff h.reads]

lemma IsPart.none (h : IsPart part gives) :
    (parts part args).getLast? = none ↔ NoneGives gives args := by
  rw [parts, noneGives_iff h.reads]

lemma IsPart.lastOr (h : IsPart part gives) :
    LastGivesOr gives otherwise args ((parts part args).getLast?.getD otherwise) := by
  rw [parts, lastGivesOr_iff h.reads]

end Last

/-! ### The reading of the arguments -/

namespace Reading

variable {α : Type} {part : Choice → Option α} {args : List Bytes}

/-- What was read, with one more choice. -/
def take (r : Reading) : Choice → Reading
  | .level level => r.setLevel level
  | .filter spec => { r with options := { r.options with filter := spec }, hasFilter := true }
  | .file path => { r with options := { r.options with file := path } }
  | .format format => { r with options := { r.options with format } }
  | .verbose n => { r with verbosity := max r.verbosity n }

/-- The step of the reading takes what the argument gives. -/
lemma next_eq (r : Reading) (arg : Bytes) : r.next arg = (given? arg).elim r r.take := by
  unfold next given?
  cases after? (ascii "--log-level=") arg with
  | some name => rfl
  | none =>
  cases after? (ascii "--log-filter=") arg with
  | some spec => rfl
  | none =>
  cases after? (ascii "--log-file=") arg with
  | some path => rfl
  | none =>
  cases after? (ascii "--log-format=") arg with
  | some name => rfl
  | none =>
  cases isQuiet arg with
  | true => rfl
  | false =>
  by_cases verbose : arg = ascii "--verbose"
  · rw [if_pos verbose, if_pos verbose]
    rfl
  · rw [if_neg verbose, if_neg verbose]
    obtain zero | positive := Nat.eq_zero_or_pos (verbosityCount arg)
    · rw [zero, Nat.max_zero]
      rfl
    · rw [if_pos positive]
      rfl

/-- What was read of arguments. -/
def after (args : List Bytes) : Reading := args.foldl next start

lemma after_concat (args : List Bytes) (arg : Bytes) :
    after (args ++ [arg]) = (given? arg).elim (after args) (after args).take := by
  rw [after, List.foldl_append, List.foldl_cons, List.foldl_nil, next_eq]
  rfl

/-- What every choice keeps between the last part and the reading holds behind all arguments. -/
lemma after_induction {P : Option α → Reading → Prop} (init : P none start)
    (step : ∀ last r c, P last r → P ((part c).or last) (r.take c)) (args : List Bytes) :
    P (parts part args).getLast? (after args) := by
  induction args using List.reverseRecOn with
  | nil => exact init
  | append_singleton args arg ih =>
    rw [after_concat, parts_concat, List.getLast?_append]
    cases given? arg with
    | none => exact ih
    | some c =>
      have taken := step _ _ c ih
      change P ((part c).toList.getLast?.or _) _
      revert taken
      cases part c <;> exact id

lemma level_after (args : List Bytes) :
    (after args).hasLevel = (parts Choice.level? args).getLast?.isSome ∧
      (after args).options.level = (parts Choice.level? args).getLast?.getD .warn :=
  after_induction (P := fun last r => r.hasLevel = last.isSome ∧ r.options.level = last.getD .warn)
    ⟨rfl, rfl⟩ (fun _ _ c kept => by cases c <;> first | exact kept | exact ⟨rfl, rfl⟩) args

lemma filter_after (args : List Bytes) :
    (after args).hasFilter = (parts Choice.filter? args).getLast?.isSome ∧
      (after args).options.filter = (parts Choice.filter? args).getLast?.getD [] :=
  after_induction (P := fun last r => r.hasFilter = last.isSome ∧ r.options.filter = last.getD [])
    ⟨rfl, rfl⟩ (fun _ _ c kept => by cases c <;> first | exact kept | exact ⟨rfl, rfl⟩) args

lemma file_after (args : List Bytes) :
    (after args).options.file = (parts Choice.file? args).getLast?.getD [] :=
  after_induction (P := fun last r => r.options.file = last.getD []) rfl
    (fun _ _ c kept => by cases c <;> first | exact kept | rfl) args

lemma format_after (args : List Bytes) :
    (after args).options.format = (parts Choice.format? args).getLast?.getD .text :=
  after_induction (P := fun last r => r.options.format = last.getD .text) rfl
    (fun _ _ c kept => by cases c <;> first | exact kept | rfl) args

/-- No argument has a say in what is shown. -/
lemma shown_after (args : List Bytes) :
    (after args).options.console = true ∧ (after args).options.colours = true := by
  induction args using List.reverseRecOn with
  | nil => exact ⟨rfl, rfl⟩
  | append_singleton args arg ih =>
    rw [after_concat]
    cases given? arg with
    | none => exact ih
    | some c => cases c <;> exact ih

lemma verbosity_after (args : List Bytes) :
    (after args).verbosity = (parts Choice.verbosity? args).foldl max 0 := by
  induction args using List.reverseRecOn with
  | nil => rfl
  | append_singleton args arg ih =>
    rw [after_concat, parts_concat, List.foldl_append, ← ih]
    cases given? arg with
    | none => rfl
    | some c => cases c <;> rfl

/-- The greatest verbosity is zero exactly if no argument asks for more records. -/
lemma greatest_after (args : List Bytes) :
    ((after args).verbosity = 0 ∧ NoneGives GivesVerbosity args) ∨
      (0 < (after args).verbosity ∧
        IsGreatest {n | ∃ arg ∈ args, GivesVerbosity arg n} (after args).verbosity) := by
  have counts {n : Nat} :
      n ∈ parts Choice.verbosity? args ↔ ∃ arg ∈ args, GivesVerbosity arg n := by
    rw [parts, List.mem_filterMap]
    exact exists_congr fun arg => and_congr_right fun _ => isPart_verbosity.reads arg n
  rw [verbosity_after, List.foldl_max, Nat.zero_max]
  cases greatest : (parts Choice.verbosity? args).max? with
  | none =>
    refine .inl ⟨rfl, fun arg mem n gives => ?_⟩
    have counted := counts.mpr ⟨arg, mem, gives⟩
    rw [List.max?_eq_none_iff.mp greatest] at counted
    cases counted
  | some n =>
    obtain ⟨mem, above⟩ := List.max?_eq_some_iff.mp greatest
    obtain ⟨arg, hmem, gives⟩ := counts.mp mem
    exact .inr ⟨verbosity_pos gives, ⟨arg, hmem, gives⟩, fun m hm => above m (counts.mpr hm)⟩

/-! ### Behind the arguments -/

lemma applyVerbosity_of_level {r : Reading} (given : r.hasLevel = true) : r.applyVerbosity = r :=
  if_neg (by simp [given])

lemma applyVerbosity_of_zero {r : Reading} (zero : r.verbosity = 0) : r.applyVerbosity = r :=
  if_neg (by simp [zero])

lemma applyVerbosity_of_pos {r : Reading} (noLevel : r.hasLevel = false)
    (positive : 0 < r.verbosity) : r.applyVerbosity =
      r.setLevel
        (if r.verbosity = 1 then .info else if r.verbosity = 2 then .debug else .trace) := by
  unfold applyVerbosity
  rw [if_pos ⟨by rw [noLevel]; rfl, positive⟩]
  obtain one | two | more : r.verbosity = 1 ∨ r.verbosity = 2 ∨ 3 ≤ r.verbosity := by omega
  · rw [one]
    rfl
  · rw [two]
    rfl
  · rw [if_pos more, if_neg (by omega), if_neg (by omega)]

end Reading

/-! ### The options -/

section Options

variable (args : List Bytes) (setting : Option Bytes)

/-- The variable counts if it is set: as a filter if it looks like one, and else as a level. -/
lemma decides_variable {o : LogOptions} (silent : o.level = .warn ∧ o.filter = [])
    (noLevel : NoneGives GivesLevel args) (noVerbosity : NoneGives GivesVerbosity args)
    (noFilter : NoneGives GivesFilter args) (text : Bytes) :
    Decides args text (o.withVariable text).level (o.withVariable text).filter := by
  obtain ⟨level, filter⟩ := silent
  unfold withVariable
  split
  case isTrue unset =>
    rw [level, filter]
    exact .nothing noLevel noVerbosity noFilter (List.isEmpty_iff.mp unset)
  case isFalse set =>
    split
    case isTrue filters =>
      rw [List.contains_iff_mem, List.contains_iff_mem] at filters
      dsimp only
      rw [level]
      exact .variableFilter noLevel noVerbosity noFilter filters
    case isFalse names =>
      rw [List.contains_iff_mem, List.contains_iff_mem, not_or] at names
      dsimp only
      rw [filter]
      exact .variableLevel noLevel noVerbosity noFilter (by simpa using set) names.1 names.2

lemma read_of_level (given : (Reading.after args).hasLevel = true) :
    read args setting = (Reading.after args).options := by
  unfold read
  rw [← Reading.after, Reading.applyVerbosity_of_level given]
  exact if_neg (by simp [given])

lemma read_of_verbosity (noLevel : (Reading.after args).hasLevel = false)
    (positive : 0 < (Reading.after args).verbosity) :
    read args setting =
      { (Reading.after args).options with
        level := if (Reading.after args).verbosity = 1 then .info
          else if (Reading.after args).verbosity = 2 then .debug else .trace } := by
  unfold read
  rw [← Reading.after, Reading.applyVerbosity_of_pos noLevel positive]
  exact if_neg (by simp [Reading.setLevel])

lemma read_of_neither (noLevel : (Reading.after args).hasLevel = false)
    (zero : (Reading.after args).verbosity = 0) :
    read args setting =
      if (Reading.after args).hasFilter then (Reading.after args).options
      else (Reading.after args).options.withVariable (setting.getD []) := by
  unfold read
  rw [← Reading.after, Reading.applyVerbosity_of_zero zero]
  dsimp only
  rw [noLevel]
  cases (Reading.after args).hasFilter <;> rfl

lemma decides_read : Decides args (setting.getD [])
    (read args setting).level (read args setting).filter := by
  obtain ⟨hasLevel, level⟩ := Reading.level_after args
  obtain ⟨hasFilter, filter⟩ := Reading.filter_after args
  have filtered : LastGivesOr GivesFilter [] args (Reading.after args).options.filter := by
    rw [filter]
    exact isPart_filter.lastOr
  cases given : (parts Choice.level? args).getLast? with
  | some v =>
    rw [given] at hasLevel level
    rw [read_of_level args setting hasLevel, level]
    exact .level (isPart_level.last.mp given) filtered
  | none =>
    rw [given] at hasLevel level
    have noLevel := isPart_level.none.mp given
    obtain ⟨zero, noVerbosity⟩ | ⟨positive, greatest⟩ := Reading.greatest_after args
    · rw [read_of_neither args setting hasLevel zero, hasFilter]
      cases filters : (parts Choice.filter? args).getLast? with
      | some spec =>
        rw [filters] at filter
        rw [Option.isSome_some, if_pos rfl, level, filter]
        exact .filter noLevel noVerbosity (isPart_filter.last.mp filters)
      | none =>
        rw [filters] at filter
        rw [Option.isSome_none, if_neg Bool.false_ne_true]
        exact decides_variable args ⟨level, filter⟩ noLevel noVerbosity
          (isPart_filter.none.mp filters) _
    · rw [read_of_verbosity args setting hasLevel positive]
      exact .verbosity noLevel greatest filtered

/-- The variable has no say in the log file, the format and what is shown. -/
lemma withVariable_rest (o : LogOptions) (text : Bytes) :
    (o.withVariable text).file = o.file ∧ (o.withVariable text).format = o.format ∧
      (o.withVariable text).console = o.console ∧ (o.withVariable text).colours = o.colours := by
  unfold withVariable
  split_ifs <;> exact ⟨rfl, rfl, rfl, rfl⟩

/-- Verbosity and the variable leave the rest as it was read. -/
lemma read_rest : (read args setting).file = (Reading.after args).options.file ∧
    (read args setting).format = (Reading.after args).options.format ∧
    (read args setting).console = (Reading.after args).options.console ∧
    (read args setting).colours = (Reading.after args).options.colours := by
  cases hasLevel : (Reading.after args).hasLevel with
  | true =>
    rw [read_of_level args setting hasLevel]
    exact ⟨rfl, rfl, rfl, rfl⟩
  | false =>
    obtain zero | positive := Nat.eq_zero_or_pos (Reading.after args).verbosity
    · rw [read_of_neither args setting hasLevel zero]
      split
      · exact ⟨rfl, rfl, rfl, rfl⟩
      · exact withVariable_rest _ _
    · rw [read_of_verbosity args setting hasLevel positive]
      exact ⟨rfl, rfl, rfl, rfl⟩

lemma describes_read : Describes args (setting.getD []) (read args setting) := by
  obtain ⟨file, format, console, colours⟩ := read_rest args setting
  have shown := Reading.shown_after args
  refine ⟨decides_read args setting, ?_, ?_, console.trans shown.1, colours.trans shown.2⟩
  · rw [file, Reading.file_after]
    exact isPart_file.lastOr
  · rw [format, Reading.format_after]
    exact isPart_format.lastOr

/-! ### Other arguments -/

/-- Arguments that are not about the log are passed over. -/
lemma foldl_filter (r : Reading) :
    (args.filter fun arg => isLogOption arg || isQuiet arg).foldl Reading.next r =
      args.foldl Reading.next r := by
  rw [List.foldl_filter]
  congr 1
  funext r arg
  split
  case isTrue => rfl
  case isFalse other =>
    rw [← isSome_given?, Option.not_isSome_iff_eq_none] at other
    rw [Reading.next_eq, other]
    rfl

end Options

end LogOptions

namespace Settings

/-- An argument for the log alone is passed over. -/
lemma next_of_isLogOption {arg : Bytes} (h : LogOptions.isLogOption arg = true) (s : Settings) :
    s.next arg = .ok s := by
  have letters (rest : Bytes) : s.next (byte '-' :: byte 'v' :: rest) =
      if LogOptions.isLogOption (byte '-' :: byte 'v' :: rest) then .ok s
      else .error (.unknownOption (byte '-' :: byte 'v' :: rest)) := rfl
  have about : (LogOptions.given? arg).isSome := by rw [LogOptions.isSome_given?, h, Bool.true_or]
  obtain ⟨c, given⟩ := Option.isSome_iff_exists.mp about
  have chooses := LogOptions.chooses_of_given? given
  cases c with
  | level v =>
    obtain ⟨text, rfl, -⟩ | ⟨rfl | rfl, -⟩ := chooses
    · rfl
    -- what asks for errors only is about the command too
    · exact absurd h (by decide)
    · exact absurd h (by decide)
  | filter spec =>
    obtain rfl := chooses
    rfl
  | file path =>
    obtain rfl := chooses
    rfl
  | format f =>
    obtain ⟨text, rfl, -⟩ := chooses
    rfl
  | verbose n =>
    obtain ⟨rfl, -⟩ | ⟨positive, rfl⟩ := chooses
    · rfl
    · obtain ⟨n, rfl⟩ := Nat.exists_eq_add_of_le' positive
      rw [List.replicate_succ] at h ⊢
      rw [letters, if_pos h]

lemma foldlM_withoutLog (args : List Bytes) (s : Settings) :
    (args.filter (!LogOptions.isLogOption ·)).foldlM next s = args.foldlM next s := by
  induction args generalizing s with
  | nil => rfl
  | cons arg args ih =>
    by_cases about : LogOptions.isLogOption arg
    · rw [List.filter_cons_of_neg (by simp [about]), List.foldlM_cons, next_of_isLogOption about]
      exact ih s
    · rw [List.filter_cons_of_pos (by simp [about]), List.foldlM_cons, List.foldlM_cons]
      exact bind_congr ih

lemma read_withoutLog (c : Config) (args : List Bytes) :
    read c (args.filter (!LogOptions.isLogOption ·)) = read c args := by
  unfold read
  rw [foldlM_withoutLog]

end Settings

/-- **The log and the command agree about which arguments are about the log.** The log is set up in
the same way without the arguments that are not about it, and the command passes over those that
are: it reads the same settings without them. The last argument of a kind gives the log file, the
format and the filter. The level is that of the last argument that gives one, or else goes by the
greatest verbosity, or else, without a filter, is given by the variable, which may also give a
filter, or else is that of warnings. -/
theorem LogOptions.read_describes (c : Config) (args : List Bytes) (setting : Option Bytes) :
    LogOptions.read (args.filter fun arg => isLogOption arg || isQuiet arg) setting =
      LogOptions.read args setting ∧
    (∀ arg, isLogOption arg = true → ∀ s : Settings, s.next arg = .ok s) ∧
    Settings.read c (args.filter (!isLogOption ·)) = Settings.read c args ∧
    Describes args (setting.getD []) (LogOptions.read args setting) := by
  refine ⟨?_, fun arg about s => Settings.next_of_isLogOption about s,
    Settings.read_withoutLog c args, describes_read args setting⟩
  unfold LogOptions.read
  rw [foldl_filter]

end ModuleLint
