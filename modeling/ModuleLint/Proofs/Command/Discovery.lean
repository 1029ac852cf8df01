import Mathlib.Data.List.Nodup
import Mathlib.Data.List.TakeWhile
import Mathlib.Tactic.Common
import ModuleLint.Command.Run

/-!
The files below a directory.

A file is known by the names that lead to it from the directory where the search starts. Discovery
finds those with a checked extension that no excluded name but their own leads to, each once. Since
a sorted list is known by its elements, nothing depends on the order of the entries.
-/

namespace ModuleLint

/-! ### Names in a tree -/

namespace FileTree

/-- The names lead from a tree to another one, entry by entry. -/
inductive Leads : FileTree → List Bytes → FileTree → Prop
  | here (t : FileTree) : Leads t [] t
  | inside {entries : List (Bytes × FileTree)} {name : Bytes} {names : List Bytes} {t u : FileTree}
      (entry : (name, t) ∈ entries) (leads : Leads t names u) :
      Leads (.directory entries) (name :: names) u

/-- A tree as it can be stored: the names in a directory differ, and a name can be part of a
path. -/
inductive Proper : FileTree → Prop
  | file (content : Bytes) : Proper (.file content)
  | directory {entries : List (Bytes × FileTree)} (distinct : (entries.map (·.1)).Nodup)
      (named : ∀ e ∈ entries, e.1 ≠ [] ∧ Byte.slash ∉ e.1) (below : ∀ e ∈ entries, Proper e.2) :
      Proper (.directory entries)

variable {entries : List (Bytes × FileTree)} {name : Bytes} {names : List Bytes} {t u : FileTree}

@[simp]
lemma leads_nil : Leads t [] u ↔ t = u :=
  ⟨fun h => by cases h; rfl, fun h => h ▸ .here t⟩

/-- The names on the way through a proper tree can be parts of a path. -/
lemma Leads.named (h : Leads t names u) (proper : t.Proper) :
    ∀ name ∈ names, name ≠ [] ∧ Byte.slash ∉ name := by
  induction h with
  | here => simp
  | inside entry _ ih =>
    cases proper with
    | directory _ named below =>
      exact List.forall_mem_cons.mpr ⟨named _ entry, ih (below _ entry)⟩

end FileTree

open FileTree

/-! ### Names in a path -/

/-- A directory as a path, up to the slash in front of what is in it. -/
def withoutSlash (directory : Bytes) : Bytes :=
  if directory.getLast? = some Byte.slash then directory.dropLast else directory

variable {directory root name path : Bytes} {names : List Bytes}

lemma joinPath_eq (directory name : Bytes) :
    joinPath directory name = withoutSlash directory ++ Byte.slash :: name := by
  unfold joinPath withoutSlash
  split
  next slash =>
    obtain ⟨front, rfl⟩ := List.getLast?_eq_some_iff.mp slash
    simp
  next => simp

lemma withoutSlash_joinPath (filled : name ≠ []) (noSlash : Byte.slash ∉ name) :
    withoutSlash (joinPath directory name) = joinPath directory name := by
  refine if_neg fun slash => noSlash ?_
  rw [joinPath_eq, List.getLast?_append_of_ne_nil _ (List.cons_ne_nil _ _),
    List.getLast?_cons_of_ne_nil filled] at slash
  exact List.mem_of_getLast? slash

lemma bne_slash_of_reverse (noSlash : Byte.slash ∉ name) :
    ∀ b ∈ name.reverse, (b != Byte.slash) = true := fun _ hb =>
  bne_iff_ne.mpr fun same => noSlash (same ▸ List.mem_reverse.mp hb)

lemma fileName_eq_self (noSlash : Byte.slash ∉ name) : fileName name = name := by
  rw [fileName, List.takeWhile_eq_self_iff.mpr (bne_slash_of_reverse noSlash),
    List.reverse_reverse]

lemma fileName_joinPath (noSlash : Byte.slash ∉ name) :
    fileName (joinPath directory name) = name := by
  rw [fileName, joinPath_eq, List.reverse_append, List.reverse_cons, List.append_assoc,
    List.takeWhile_append_of_pos (bne_slash_of_reverse noSlash)]
  simp

/-- The parts of a path below a directory are those of the directory and the names. -/
lemma splitOn_pathBelow (named : ∀ name ∈ names, name ≠ [] ∧ Byte.slash ∉ name) (ne : names ≠ []) :
    (Config.pathBelow root names).splitOn Byte.slash =
      (withoutSlash root).splitOn Byte.slash ++ names := by
  induction names generalizing root with
  | nil => exact absurd rfl ne
  | cons name names ih =>
    obtain ⟨⟨filled, noSlash⟩, named⟩ := List.forall_mem_cons.mp named
    have here : (joinPath root name).splitOn Byte.slash =
        (withoutSlash root).splitOn Byte.slash ++ [name] := by
      rw [joinPath_eq, List.splitOn_append_cons_self, List.splitOn_eq_singleton noSlash]
    rw [Config.pathBelow, List.foldl_cons]
    cases names with
    | nil => exact here
    | cons next names =>
      rw [← Config.pathBelow, ih named (List.cons_ne_nil _ _), withoutSlash_joinPath filled noSlash,
        here, List.append_assoc, List.singleton_append]

lemma extension_joinPath (noSlash : Byte.slash ∉ name) :
    extension (joinPath directory name) = extension name := by
  rw [extension, extension, fileName_joinPath noSlash, fileName_eq_self noSlash]

namespace Config

variable {c : Config} {content : Bytes} {entries : List (Bytes × FileTree)} {t : FileTree}

/-! ### The files that are sought -/

/-- From the tree at a path, the names lead to a file that the search is for. -/
structure Seeks (c : Config) (root : Bytes) (t : FileTree) (names : List Bytes) : Prop where
  leads : ∃ content, t.Leads names (.file content)
  checked : extension (pathBelow root names) ∈ c.extensions
  entered : ∀ directory ∈ names.dropLast, directory ∉ c.exclude

lemma seeks_file :
    c.Seeks root (.file content) names ↔ names = [] ∧ extension root ∈ c.extensions := by
  constructor
  · rintro ⟨⟨_, leads⟩, checked, -⟩
    cases leads
    exact ⟨rfl, checked⟩
  · rintro ⟨rfl, checked⟩
    exact ⟨⟨content, .here _⟩, checked, by simp⟩

lemma seeks_directory :
    c.Seeks root (.directory entries) names ↔
      ∃ name t rest, names = name :: rest ∧ (name, t) ∈ entries ∧
        (t.isDirectory → name ∉ c.exclude) ∧ c.Seeks (joinPath root name) t rest := by
  constructor
  · rintro ⟨⟨content, leads⟩, checked, entered⟩
    cases leads with
    | @inside _ name rest t _ entry leads =>
      refine ⟨name, t, rest, rfl, entry, fun isDirectory => ?_, ⟨content, leads⟩, checked, ?_⟩
      · -- More names are to come, so this one is not the last.
        cases leads with
        | here => cases isDirectory
        | inside => exact entered name (by simp)
      · cases rest with
        | nil => simp
        | cons next rest => exact fun d hd => entered d (List.mem_cons_of_mem _ hd)
  · rintro ⟨name, t, rest, rfl, entry, open', ⟨content, leads⟩, checked, entered⟩
    refine ⟨⟨content, .inside entry leads⟩, checked, ?_⟩
    cases leads with
    | here => simp
    | inside =>
      rw [List.dropLast_cons_of_ne_nil (List.cons_ne_nil _ _), List.forall_mem_cons]
      exact ⟨open' rfl, entered⟩

/-! ### The files that are found -/

lemma filesBelow_eq (c : Config) (entries : List (Bytes × FileTree)) :
    c.filesBelow entries = entries.flatMap fun e => c.filesAt e.1 e.2 := by
  induction entries with
  | nil => rw [filesBelow, List.flatMap_nil]
  | cons e entries ih => rw [filesBelow, ih, List.flatMap_cons]

/-- The files at an entry are sought with its name in front, which is not an excluded one if it is
that of a directory. -/
def FindsAt (c : Config) (name : Bytes) (t : FileTree) : Prop :=
  ∀ root names, names ∈ c.filesAt name t ↔
    ∃ rest, names = name :: rest ∧ (t.isDirectory → name ∉ c.exclude) ∧
      c.Seeks (joinPath root name) t rest

lemma mem_filesBelow_of_findsAt (finds : ∀ e ∈ entries, c.FindsAt e.1 e.2) :
    names ∈ c.filesBelow entries ↔ c.Seeks root (.directory entries) names := by
  rw [filesBelow_eq, List.mem_flatMap, seeks_directory]
  constructor
  · rintro ⟨e, entry, found⟩
    obtain ⟨rest, rfl, sought⟩ := (finds e entry root names).mp found
    exact ⟨e.1, e.2, rest, rfl, entry, sought⟩
  · rintro ⟨name, t, rest, rfl, entry, sought⟩
    exact ⟨(name, t), entry, (finds _ entry root _).mpr ⟨rest, rfl, sought⟩⟩

lemma findsAt (proper : t.Proper) (noSlash : Byte.slash ∉ name) : c.FindsAt name t := by
  induction proper generalizing name with
  | file content =>
    intro root names
    simp [filesAt, checks, seeks_file, isDirectory, extension_joinPath noSlash, and_comm]
  | @directory entries _ named _ ih =>
    intro root names
    have below : ∀ rest, rest ∈ c.filesBelow entries ↔
        c.Seeks (joinPath root name) (.directory entries) rest := fun rest =>
      mem_filesBelow_of_findsAt fun e entry => ih e entry (named e entry).2
    by_cases excluded : name ∈ c.exclude
    · simp [filesAt, excluded, isDirectory]
    · simp [filesAt, excluded, isDirectory, ← below, and_comm, eq_comm]

lemma mem_filesBelow (proper : (FileTree.directory entries).Proper) :
    names ∈ c.filesBelow entries ↔ c.Seeks root (.directory entries) names := by
  cases proper with
  | directory _ named below =>
    exact mem_filesBelow_of_findsAt fun e entry => findsAt (below e entry) (named e entry).2

lemma head_of_mem_filesAt (found : names ∈ c.filesAt name t) : names.head? = some name := by
  cases t with
  | file content =>
    rw [filesAt] at found
    split at found
    · rw [List.mem_singleton.mp found, List.head?_cons]
    · cases found
  | directory entries =>
    rw [filesAt] at found
    split at found
    · cases found
    · obtain ⟨rest, -, rfl⟩ := List.mem_map.mp found
      rfl

/-- Names in one directory differ, so what is found at its entries does too. -/
lemma nodup_filesBelow_of_filesAt (distinct : (entries.map (·.1)).Nodup)
    (each : ∀ e ∈ entries, (c.filesAt e.1 e.2).Nodup) : (c.filesBelow entries).Nodup := by
  rw [filesBelow_eq, List.nodup_flatMap]
  refine ⟨each, (List.pairwise_map.mp distinct).imp fun differ names here there => differ ?_⟩
  exact Option.some_inj.mp
    ((head_of_mem_filesAt here).symm.trans (head_of_mem_filesAt there))

lemma nodup_filesAt (proper : t.Proper) (name : Bytes) : (c.filesAt name t).Nodup := by
  induction proper generalizing name with
  | file => rw [filesAt]; split <;> simp
  | directory distinct _ _ ih =>
    rw [filesAt]
    split
    · exact List.nodup_nil
    · exact (nodup_filesBelow_of_filesAt distinct fun e entry => ih e entry e.1).map
        (List.cons_injective)

lemma nodup_filesBelow (proper : (FileTree.directory entries).Proper) :
    (c.filesBelow entries).Nodup := by
  cases proper with
  | directory distinct _ below =>
    exact nodup_filesBelow_of_filesAt distinct fun e entry => nodup_filesAt (below e entry) e.1

/-! ### The order of paths -/

/-- Lists of names in the order of paths. -/
def inOrder (found : List (List Bytes)) : List (List Bytes) :=
  found.mergeSort fun a b => decide (a ≤ b)

lemma inOrder_perm (found : List (List Bytes)) : (inOrder found).Perm found :=
  List.mergeSort_perm _ _

lemma pairwise_le_inOrder (found : List (List Bytes)) : (inOrder found).Pairwise (· ≤ ·) := by
  have sorted : (inOrder found).Pairwise fun a b => decide (a ≤ b) = true :=
    List.pairwise_mergeSort (fun a b c => by simpa using List.le_trans)
      (fun a b => by simpa using List.le_total a b) found
  exact sorted.imp of_decide_eq_true

lemma pairwise_lt_inOrder {found : List (List Bytes)} (nodup : found.Nodup) :
    (inOrder found).Pairwise (· < ·) :=
  ((pairwise_le_inOrder found).and ((inOrder_perm found).nodup_iff.mpr nodup)).imp
    fun ⟨le, ne⟩ => by
      by_contra notLess
      exact ne (List.le_antisymm le notLess)

lemma inOrder_eq_of_perm {found others : List (List Bytes)} (same : found.Perm others) :
    inOrder found = inOrder others :=
  ((inOrder_perm found).trans (same.trans (inOrder_perm others).symm)).eq_of_pairwise
    (fun _ _ _ _ => List.le_antisymm) (pairwise_le_inOrder found) (pairwise_le_inOrder others)

/-! ### Any order of entries -/

/-- The entries of a tree as an iterator yields them: each entry once, if no directory on the way to
it is skipped, in any order. -/
structure Yields (c : Config) (t : FileTree) (yielded : List (List Bytes × FileTree)) : Prop where
  once : (yielded.map (·.1)).Nodup
  all : ∀ names u, (names, u) ∈ yielded ↔
    names ≠ [] ∧ t.Leads names u ∧ ∀ directory ∈ names.dropLast, directory ∉ c.exclude

/-- An entry, and what is yielded below it unless it is skipped. -/
def withBelow (c : Config) (e : Bytes × FileTree) (below : List (List Bytes × FileTree)) :
    List (List Bytes × FileTree) :=
  ([e.1], e.2) ::
    if e.2.isDirectory ∧ e.1 ∈ c.exclude then [] else below.map fun p => (e.1 :: p.1, p.2)

lemma mem_withBelow {e : Bytes × FileTree} {below : List (List Bytes × FileTree)} {u : FileTree}
    (yields : c.Yields e.2 below) :
    (names, u) ∈ c.withBelow e below ↔
      ∃ rest, names = e.1 :: rest ∧ e.2.Leads rest u ∧
        ∀ directory ∈ names.dropLast, directory ∉ c.exclude := by
  unfold withBelow
  constructor
  · rintro (_ | ⟨_, later⟩)
    · exact ⟨[], rfl, .here _, by simp⟩
    · split at later
      · cases later
      next entered =>
        obtain ⟨⟨rest, u⟩, mem, same⟩ := List.mem_map.mp later
        cases same
        obtain ⟨ne, leads, open'⟩ := (yields.all _ _).mp mem
        refine ⟨rest, rfl, leads, ?_⟩
        rw [List.dropLast_cons_of_ne_nil ne, List.forall_mem_cons]
        refine ⟨fun excluded => entered ⟨?_, excluded⟩, open'⟩
        generalize e.2 = t at leads
        cases leads with
        | here => exact absurd rfl ne
        | inside => rfl
  · rintro ⟨rest, rfl, leads, entered⟩
    by_cases ne : rest = []
    · cases ne
      cases leads_nil.mp leads
      exact List.mem_cons_self
    · rw [List.dropLast_cons_of_ne_nil ne, List.forall_mem_cons] at entered
      rw [if_neg fun skipped => entered.1 skipped.2]
      exact List.mem_cons_of_mem _
        (List.mem_map.mpr ⟨(rest, u), (yields.all _ _).mpr ⟨ne, leads, entered.2⟩, rfl⟩)

lemma nodup_withBelow {e : Bytes × FileTree} {below : List (List Bytes × FileTree)}
    (yields : c.Yields e.2 below) : ((c.withBelow e below).map (·.1)).Nodup := by
  unfold withBelow
  split
  · simp
  · rw [List.map_cons, List.map_map, List.nodup_cons]
    constructor
    · intro again
      obtain ⟨p, mem, same⟩ := List.mem_map.mp again
      exact ((yields.all _ _).mp mem).1 (List.cons.inj same).2
    · have tails : below.map ((·.1) ∘ fun p : List Bytes × FileTree => (e.1 :: p.1, p.2)) =
          (below.map (·.1)).map (e.1 :: ·) := by rw [List.map_map]; rfl
      exact tails ▸ yields.once.map List.cons_injective

/-- Every proper tree has such an iterator: one that goes down at once into what is not skipped. -/
lemma exists_yields (proper : t.Proper) : ∃ yielded, c.Yields t yielded := by
  induction proper with
  | file content =>
    refine ⟨[], List.nodup_nil, fun names u =>
      ⟨fun mem => absurd mem List.not_mem_nil, fun ⟨ne, leads, _⟩ => ?_⟩⟩
    cases leads
    exact absurd rfl ne
  | @directory entries distinct _ _ ih =>
    choose! below yields using ih
    refine ⟨entries.flatMap fun e => c.withBelow e (below e), ?_, fun names u => ?_⟩
    · rw [List.map_flatMap, List.nodup_flatMap]
      refine ⟨fun e entry => nodup_withBelow (yields e entry), ?_⟩
      refine (List.pairwise_map.mp distinct).imp_of_mem fun he he' differ names here there => ?_
      obtain ⟨⟨_, _⟩, mem, rfl⟩ := List.mem_map.mp here
      obtain ⟨⟨_, _⟩, mem', rfl⟩ := List.mem_map.mp there
      obtain ⟨rest, same, -⟩ := (mem_withBelow (yields _ he)).mp mem
      obtain ⟨rest', same', -⟩ := (mem_withBelow (yields _ he')).mp mem'
      exact differ (List.cons.inj (same.symm.trans same')).1
    · rw [List.mem_flatMap]
      constructor
      · rintro ⟨e, entry, mem⟩
        obtain ⟨rest, rfl, leads, entered⟩ := (mem_withBelow (yields e entry)).mp mem
        exact ⟨List.cons_ne_nil _ _, .inside entry leads, entered⟩
      · rintro ⟨ne, leads, entered⟩
        cases leads with
        | here => exact absurd rfl ne
        | @inside _ name rest t _ entry leads =>
          exact ⟨(name, t), entry, (mem_withBelow (yields _ entry)).mpr ⟨rest, rfl, leads, entered⟩⟩

/-- What one pass over yielded entries keeps: the files with a checked extension. -/
def kept (c : Config) (root : Bytes) (yielded : List (List Bytes × FileTree)) :
    List (List Bytes) :=
  (yielded.filter fun e => !e.2.isDirectory && c.checks (pathBelow root e.1)).map (·.1)

variable {yielded : List (List Bytes × FileTree)}

lemma mem_kept (yields : c.Yields (.directory entries) yielded) :
    names ∈ c.kept root yielded ↔ c.Seeks root (.directory entries) names := by
  constructor
  · intro keeps
    obtain ⟨⟨_, u⟩, passes, rfl⟩ := List.mem_map.mp keeps
    obtain ⟨entry, test⟩ := List.mem_filter.mp passes
    obtain ⟨-, leads, entered⟩ := (yields.all _ _).mp entry
    cases u with
    | file content => exact ⟨⟨content, leads⟩, by simpa [isDirectory, checks] using test, entered⟩
    | directory => cases test
  · rintro ⟨⟨content, leads⟩, checked, entered⟩
    have ne : names ≠ [] := by rintro rfl; cases leads
    refine List.mem_map.mpr ⟨(names, .file content), List.mem_filter.mpr ⟨?_, ?_⟩, rfl⟩
    · exact (yields.all _ _).mpr ⟨ne, leads, entered⟩
    · simpa [isDirectory, checks] using checked

lemma nodup_kept (yields : c.Yields t yielded) : (c.kept root yielded).Nodup :=
  yields.once.sublist (List.filter_sublist.map _)

/-- A pass in any order keeps what discovery finds. -/
lemma kept_perm (proper : (FileTree.directory entries).Proper)
    (yields : c.Yields (.directory entries) yielded) :
    (c.kept root yielded).Perm (c.filesBelow entries) :=
  (List.perm_ext_iff_of_nodup (nodup_kept yields) (nodup_filesBelow proper)).mpr fun _ =>
    (mem_kept yields).trans (mem_filesBelow proper).symm

end Config

namespace Command

open Config

variable {c : Config} {files : FileLookup} {entries : List (Bytes × FileTree)}

/-- The files of a directory are added behind those chosen before. They are the files with a checked
extension that no excluded directory on the way from the chosen one leads to; the name of the chosen
directory and those of files are not compared with the excluded ones. The paths stand in strict
order, part by part, so that each is there once. A pass over the entries in any order, each yielded
once, ends with the same files, and there is such an order. -/
theorem select_directory (s : Selection) (path : Bytes)
    (here : files path = .ok (.directory entries))
    (proper : (FileTree.directory entries).Proper) :
    ∃ found : List (List Bytes),
      (select c files s path).1 = { s with files := s.files ++ found.map (pathBelow path) } ∧
      (∀ names, names ∈ found ↔
        (∃ content, (FileTree.directory entries).Leads names (.file content)) ∧
          extension (pathBelow path names) ∈ c.extensions ∧
          ∀ directory ∈ names.dropLast, directory ∉ c.exclude) ∧
      ((found.map (pathBelow path)).Pairwise fun p q =>
        p.splitOn Byte.slash < q.splitOn Byte.slash) ∧
      (∃ yielded, c.Yields (.directory entries) yielded) ∧
      ∀ yielded, c.Yields (.directory entries) yielded →
        inOrder (c.kept path yielded) = found := by
  have sought : ∀ names, names ∈ inOrder (c.filesBelow entries) ↔
      c.Seeks path (.directory entries) names := fun names =>
    (inOrder_perm _).mem_iff.trans (mem_filesBelow proper)
  refine ⟨inOrder (c.filesBelow entries), ?_, fun names => (sought names).trans ?_, ?_,
    exists_yields proper, ?_⟩
  · simp [select, discover, here, inOrder]
  · exact ⟨fun h => ⟨h.leads, h.checked, h.entered⟩, fun ⟨leads, checked, entered⟩ =>
      ⟨leads, checked, entered⟩⟩
  · have parts : ∀ names ∈ inOrder (c.filesBelow entries),
        (pathBelow path names).splitOn Byte.slash =
          (withoutSlash path).splitOn Byte.slash ++ names := fun names found => by
      obtain ⟨⟨content, leads⟩, -, -⟩ := (sought names).mp found
      exact splitOn_pathBelow (leads.named proper) (by rintro rfl; cases leads)
    refine List.pairwise_map.mpr
      ((pairwise_lt_inOrder (nodup_filesBelow proper)).imp_of_mem fun before after less => ?_)
    rw [parts _ before, parts _ after]
    exact List.append_left_lt less
  · exact fun yielded yields => inOrder_eq_of_perm (kept_perm proper yields)

/-- An excluded name three times: a file has it, a directory below another one, and the directory
where the search starts. -/
def excludedThrice : List (Bytes × FileTree) :=
  [(ascii "y.js", .directory [(ascii "b.js", .file [])]),
    (ascii "src", .directory [(ascii "x.js", .directory [(ascii "a.js", .file [])])]),
    (ascii "x.js", .file [])]

lemma proper_excludedThrice : (FileTree.directory excludedThrice).Proper := by
  have leaf : ∀ name : Bytes, name ≠ [] ∧ Byte.slash ∉ name →
      (FileTree.directory [(name, .file [])]).Proper := fun name named =>
    .directory (List.nodup_singleton _) (by simpa using named) (by simpa using .file [])
  refine .directory (by decide) (by decide) ?_
  rw [excludedThrice, List.forall_mem_cons, List.forall_mem_cons, List.forall_mem_singleton]
  refine ⟨leaf _ (by decide), .directory (by decide) (by decide) ?_, .file []⟩
  rw [List.forall_mem_singleton]
  exact leaf _ (by decide)

theorem select_directory_excludedThrice :
    ∃ found : List (List Bytes),
      (select { Config.standard with exclude := [ascii "x.js"] }
          (fun _ => .ok (.directory excludedThrice)) ⟨.start .text, [], 0⟩ (ascii "x.js")).1.files =
        found.map (pathBelow (ascii "x.js")) ∧
      [ascii "x.js"] ∈ found ∧ [ascii "y.js", ascii "b.js"] ∈ found ∧
      [ascii "src", ascii "x.js", ascii "a.js"] ∉ found := by
  obtain ⟨found, selected, sought, -, -⟩ :=
    @select_directory { Config.standard with exclude := [ascii "x.js"] }
      (fun _ => .ok (.directory excludedThrice)) excludedThrice ⟨.start .text, [], 0⟩
      (ascii "x.js") rfl proper_excludedThrice
  refine ⟨found, by rw [selected]; rfl, (sought _).mpr ⟨⟨[], ?_⟩, ?_, ?_⟩,
    (sought _).mpr ⟨⟨[], ?_⟩, ?_, ?_⟩, fun here => ?_⟩
  · exact .inside (t := .file []) (by simp [excludedThrice]) (.here _)
  · decide
  · decide
  · exact .inside (t := .directory [(ascii "b.js", .file [])]) (by simp [excludedThrice])
      (.inside (List.mem_singleton_self _) (.here _))
  · decide
  · decide
  · exact ((sought _).mp here).2.2 (ascii "x.js") (by decide) (by decide)

end Command

end ModuleLint
