import Mathlib.Data.List.Induction
import ModuleLint.Log.Logger
import ModuleLint.Proofs.Log.Levels

/-!
When the level beside the filter refuses too much.

A logger that is set up or given a filter keeps the least level of the filter, which refuses nothing
that the filter takes. Choosing a level replaces the kept level but only the default of the filter:
the modules that the filter names keep theirs, and what is taken of them below the chosen level is
refused until the next filter.
-/

namespace ModuleLint.Logger

/-- What a logger can be asked for. -/
inductive Request
  | setUp (options : LogOptions) (hasFile : Bool)
  | setLevel (level : LogLevel)
  | setFilter (spec : Bytes)
  deriving DecidableEq, Repr

/-- The logger with a request carried out. Setting it up starts anew. -/
def perform (l : Logger) : Request → Logger
  | .setUp options hasFile => ofOptions options hasFile
  | .setLevel level => l.setLevel level
  | .setFilter spec => l.setFilter spec

/-- A logger that is set up and asked for some things, the earliest first. -/
def after (options : LogOptions) (hasFile : Bool) (history : List Request) : Logger :=
  history.foldl perform (ofOptions options hasFile)

/-- How a logger stands behind the request that came last, if any did: its filter has each module
once, and beside it stands the least level of the filter, or a level that was chosen and is also
that of modules without an entry. -/
structure Fits (last : Option Request) (l : Logger) : Prop where
  table : l.filter.IsTable
  least : (∀ v, last ≠ some (.setLevel v)) → l.level = l.filter.minLevel
  chosen : ∀ v, last = some (.setLevel v) → l.level = v ∧ l.filter.default = v

section Step

variable {l : Logger} {last : Option Request}

/-- Sinks have no say in what is taken. -/
lemma Fits.sinkIf {c : Prop} [Decidable c] (fits : Fits last l) (sink : LogSink) :
    Fits last (if c then l.addSink sink else l) := by
  split
  · exact ⟨fits.table, fits.least, fits.chosen⟩
  · exact fits

lemma fits_setFilter (silent : ∀ v, last ≠ some (.setLevel v)) (l : Logger) (spec : Bytes) :
    Fits last (l.setFilter spec) :=
  ⟨LogFilter.isTable_parse l.filter spec, fun _ => rfl, fun v is => absurd is (silent v)⟩

lemma fits_ofOptions (silent : ∀ v, last ≠ some (.setLevel v)) (options : LogOptions)
    (hasFile : Bool) : Fits last (ofOptions options hasFile) := by
  have filtered : Fits last (if options.filter.isEmpty then uniform options.level
      else (uniform options.level).setFilter options.filter) := by
    split
    · exact ⟨LogFilter.isTable_uniform options.level, fun _ => rfl,
        fun v is => absurd is (silent v)⟩
    · exact fits_setFilter silent _ options.filter
  exact (filtered.sinkIf _).sinkIf _

/-- One more request, whatever came before it. -/
lemma Fits.perform (fits : Fits last l) (r : Request) : Fits (some r) (l.perform r) := by
  cases r with
  | setUp options hasFile => exact fits_ofOptions (fun v => by simp) options hasFile
  | setLevel level =>
    refine ⟨fits.table, fun silent => absurd rfl (silent level), fun v is => ?_⟩
    cases is
    exact ⟨rfl, rfl⟩
  | setFilter spec => exact fits_setFilter (fun v => by simp) l spec

lemma fits_after (options : LogOptions) (hasFile : Bool) (history : List Request) :
    Fits history.getLast? (after options hasFile history) := by
  induction history using List.reverseRecOn with
  | nil => exact fits_ofOptions (fun v => by simp) options hasFile
  | append_singleton history r ih =>
    rw [List.getLast?_concat, after, List.foldl_append]
    exact ih.perform r

/-! ### What is taken -/

lemma admits_iff (l : Logger) (level : LogLevel) (module : Bytes) :
    l.admits level module = true ↔ l.level ≤ level ∧ l.filter.levelOf module ≤ level := by
  rw [Logger.admits, LogFilter.admits, Bool.and_eq_true, decide_eq_true_iff, decide_eq_true_iff]

/-- Of what the filter takes, only what is below a level that was chosen last is refused. -/
lemma Fits.admits_iff (fits : Fits last l) (level : LogLevel) (module : Bytes) :
    l.admits level module = true ↔ l.filter.admits level module = true ∧
      ∀ v, last = some (.setLevel v) → v ≤ level := by
  rw [Logger.admits_iff, LogFilter.admits, decide_eq_true_iff, and_comm]
  refine and_congr_right fun taken => ⟨fun above v is => ?_, fun above => ?_⟩
  · exact (fits.chosen v is).1 ▸ above
  · by_cases silent : ∀ v, last ≠ some (.setLevel v)
    · rw [fits.least silent]
      exact LogLevel.le_trans (l.filter.minLevel_le_levelOf module) taken
    · obtain ⟨v, is⟩ := not_forall_not.mp silent
      exact (fits.chosen v is).1 ▸ above v is

/-- A chosen level refuses something that the filter takes exactly if the filter gives a lower level
to a module by name. -/
lemma Fits.agrees_iff (fits : Fits last l) :
    (∀ level module, l.admits level module = l.filter.admits level module) ↔
      ∀ v, last = some (.setLevel v) → ∀ p ∈ l.filter.modules, v ≤ p.2 := by
  constructor
  · intro agrees v is p mem
    have own : l.filter.levelOf p.1 = p.2 := by
      rw [LogFilter.levelOf, fits.table p mem, Option.getD_some]
    have taken : l.filter.admits p.2 p.1 = true := by
      rw [LogFilter.admits, own]
      exact decide_eq_true (Int.le_refl _)
    exact ((fits.admits_iff p.2 p.1).mp ((agrees p.2 p.1).trans taken)).2 v is
  · intro above level module
    rw [Bool.eq_iff_iff, fits.admits_iff]
    refine and_iff_left_of_imp fun taken v is => ?_
    rw [LogFilter.admits, decide_eq_true_iff, LogFilter.levelOf] at taken
    cases own : l.filter.modules.lookup module with
    | none =>
      rw [own, Option.getD_none, (fits.chosen v is).2] at taken
      exact taken
    | some w =>
      rw [own, Option.getD_some] at taken
      exact LogLevel.le_trans (above v is _ (LogFilter.mem_of_lookup own)) taken

end Step

/-- **Only a level that was chosen last keeps back what the filter takes.** After any requests a
logger takes what its filter takes, but for what lies below a level if choosing that level was the
last request. So the two agree exactly if no level was chosen last, or none above a level that the
filter gives a module by name. -/
theorem admits_after (options : LogOptions) (hasFile : Bool) (history : List Request) :
    let l := after options hasFile history
    (∀ level module, l.admits level module = true ↔ l.filter.admits level module = true ∧
      ∀ v, history.getLast? = some (.setLevel v) → v ≤ level) ∧
    ((∀ level module, l.admits level module = l.filter.admits level module) ↔
      ∀ v, history.getLast? = some (.setLevel v) → ∀ p ∈ l.filter.modules, v ≤ p.2) :=
  have fits := fits_after options hasFile history
  ⟨fits.admits_iff, fits.agrees_iff⟩

/-- Choosing a level keeps back the records of a module that the filter takes all records of. -/
theorem admits_after_suppressed :
    let l := after .standard false [.setFilter (ascii "check=trace"), .setLevel .error]
    l.filter.admits .trace (ascii "check") = true ∧
      l.admits .trace (ascii "check") = false := by
  decide +kernel

end ModuleLint.Logger
