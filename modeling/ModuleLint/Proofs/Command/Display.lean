import Mathlib.Tactic.Common
import ModuleLint.Command.Run

/-!
Arguments about what is shown.

`--quiet`, `--dump-ast` and the format choose what is shown and nothing else. Settings without these
choices are the same with and without such arguments, and so is the status of a reading that stops.
-/

namespace ModuleLint

/-- The arguments that choose what is shown of a check. -/
def Command.displayArguments : List Bytes :=
  [ascii "--quiet", ascii "-q", ascii "--dump-ast", ascii "--format=json", ascii "--format=text"]

namespace Settings

/-- The settings without what they choose to show. -/
def core (s : Settings) : Settings := { s with format := .text, quiet := false, dumpTrees := false }

/-- The settings without what they choose to show, or the status that the reading stops with. -/
def coreOf (r : Except Stop Settings) : Except Nat Settings :=
  (r.map core).mapError fun stop => (Command.stopped stop).status

variable (s : Settings)

lemma readFormat_core (format : Bytes) :
    coreOf (s.core.readFormat format) = coreOf (s.readFormat format) := by
  unfold readFormat
  split
  · rfl
  · split <;> rfl

lemma readLevel_core (arg : Bytes) : coreOf (s.core.readLevel arg) = coreOf (s.readLevel arg) := by
  unfold readLevel
  cases levelOption? arg with
  | none => rfl
  | some choice =>
    dsimp only
    split <;> rfl

/-- What is shown has no say in how an argument is read. -/
lemma next_core (arg : Bytes) : coreOf (s.core.next arg) = coreOf (s.next arg) := by
  unfold next
  split
  · rfl
  split
  · rfl
  split
  · rfl
  split
  · rfl
  split
  · rfl
  cases LogOptions.after? (ascii "--format=") arg with
  | some format => exact s.readFormat_core format
  | none =>
    dsimp only
    split
    · exact s.readLevel_core arg
    split
    · rfl
    split <;> rfl

/-- An argument about what is shown changes nothing else. -/
lemma next_display {arg : Bytes} (h : arg ∈ Command.displayArguments) :
    coreOf (s.next arg) = .ok s.core := by
  simp only [Command.displayArguments, List.mem_cons, List.not_mem_nil, or_false] at h
  rcases h with rfl | rfl | rfl | rfl | rfl <;> rfl

/-! ### Readings -/

variable {s} {s' : Settings}

lemma next_congr (h : s.core = s'.core) (arg : Bytes) :
    coreOf (s.next arg) = coreOf (s'.next arg) := by
  rw [← s.next_core, h, s'.next_core]

/-- Readings that agree go on alike. -/
lemma coreOf_bind {r r' : Except Stop Settings} {f f' : Settings → Except Stop Settings}
    (h : coreOf r = coreOf r') (hf : ∀ s s', s.core = s'.core → coreOf (f s) = coreOf (f' s')) :
    coreOf (r >>= f) = coreOf (r' >>= f') := by
  cases r with
  | error stop =>
    cases r' with
    | error stop' => exact h
    | ok t' => cases h
  | ok t =>
    cases r' with
    | error stop' => cases h
    | ok t' => exact hf t t' (Except.ok.inj h)

lemma foldlM_congr (h : s.core = s'.core) (args : List Bytes) :
    coreOf (args.foldlM next s) = coreOf (args.foldlM next s') := by
  induction args generalizing s s' with
  | nil => exact congrArg Except.ok h
  | cons arg args ih =>
    rw [List.foldlM_cons, List.foldlM_cons]
    exact coreOf_bind (next_congr h arg) fun t t' ht => ih ht

/-- Arguments about what is shown may be left out. -/
lemma foldlM_filter (s : Settings) (args : List Bytes) :
    coreOf (args.foldlM next s) =
      coreOf ((args.filter (· ∉ Command.displayArguments)).foldlM next s) := by
  induction args generalizing s with
  | nil => rfl
  | cons arg args ih =>
    rw [List.foldlM_cons, List.filter_cons]
    by_cases h : arg ∈ Command.displayArguments
    · rw [if_neg (by simpa using h), ← ih]
      have shown : coreOf (s.next arg) = coreOf (.ok s) := s.next_display h
      exact coreOf_bind shown fun t t' ht => foldlM_congr ht args
    · rw [if_pos (by simpa using h), List.foldlM_cons]
      refine coreOf_bind rfl fun t t' ht => ?_
      rw [ih]
      exact foldlM_congr ht _

/-- **Settings do not depend on arguments about what is shown**, but for what is shown. -/
theorem read_display (c : Config) {args args' : List Bytes}
    (h : args.filter (· ∉ Command.displayArguments) =
      args'.filter (· ∉ Command.displayArguments)) :
    coreOf (read c args) = coreOf (read c args') := by
  refine coreOf_bind ?_ fun t t' ht => ?_
  · rw [foldlM_filter, h, ← foldlM_filter]
  · have paths : t.core.paths = t'.core.paths := by rw [ht]
    change t.paths = t'.paths at paths
    rw [paths]
    split
    · exact congrArg (fun u : Settings => Except.ok { u with paths := [ascii "."] }) ht
    · exact congrArg Except.ok ht

end Settings

end ModuleLint
