import ModuleLint.Command.Config
import ModuleLint.FileTree

/-!
The files to check below a directory.

They are the files with a checked extension, except below directories with an excluded name. The
name of the directory that the search starts from does not matter. The order is that of paths: part
by part, each by its bytes.
-/

namespace ModuleLint

/-- The last part of a path. -/
def fileName (path : Bytes) : Bytes := (path.reverse.takeWhile (· != Byte.slash)).reverse

/-- The extension of a path: its last name from the last dot on. A dot at the start of a name is not
counted, and two dots alone are no name. -/
def extension (path : Bytes) : Bytes :=
  let name := fileName path
  if name = ascii ".." ∨ ¬ name.tail.contains Byte.dot then []
  else Byte.dot :: (name.reverse.takeWhile (· != Byte.dot)).reverse

/-- A path in a directory: a slash stands between, unless the directory ends in one. -/
def joinPath (directory name : Bytes) : Bytes :=
  if directory.getLast? = some Byte.slash then directory ++ name
  else directory ++ [Byte.slash] ++ name

/-- The look-up in trees that some paths lead to: the trees themselves, and what is below them. -/
def lookupBelow (roots : List (Bytes × FileTree)) : FileLookup := fun path =>
  let inRoot (root : Bytes) (t : FileTree) : Option (Except PathError FileTree) :=
    let start := joinPath root []
    if path = root then some (.ok t)
    else if start.isPrefixOf path then some (t.lookup (path.drop start.length))
    else none
  (roots.findSome? fun (root, t) => inRoot root t).getD (.error .missing)

namespace Config

/-- Whether files with the extension of a path are checked. -/
def checks (c : Config) (path : Bytes) : Bool := c.extensions.contains (extension path)

mutual

/-- The checked files below some entries, each as the names that lead to it. -/
def filesBelow (c : Config) : List (Bytes × FileTree) → List (List Bytes)
  | [] => []
  | (name, t) :: rest => filesAt c name t ++ filesBelow c rest

/-- The checked files at an entry. -/
def filesAt (c : Config) (name : Bytes) : FileTree → List (List Bytes)
  | .file _ => if c.checks name then [[name]] else []
  | .directory l => if c.exclude.contains name then [] else (filesBelow c l).map (name :: ·)

end

mutual

/-- The excluded directories below some entries, each as the names that lead to it. -/
def skippedBelow (c : Config) : List (Bytes × FileTree) → List (List Bytes)
  | [] => []
  | (name, t) :: rest => skippedAt c name t ++ skippedBelow c rest

/-- The excluded directories at an entry. -/
def skippedAt (c : Config) (name : Bytes) : FileTree → List (List Bytes)
  | .file _ => []
  | .directory l => if c.exclude.contains name then [[name]] else (skippedBelow c l).map (name :: ·)

end

/-- Names below a directory as a path. -/
def pathBelow (root : Bytes) (names : List Bytes) : Bytes := names.foldl joinPath root

/-- The checked files below a directory, in the order of paths, and what is logged of the search. -/
def discover (c : Config) (files : FileLookup) (root : Bytes) : List Bytes × List LogRecord :=
  let refused (e : PathError) : List LogRecord :=
    [⟨.warn, ascii "cli", ascii "Cannot access " ++ root ++ ascii ": " ++ e.message⟩]
  match files root with
  | .error e => ([], refused e)
  | .ok (.file _) => ([], refused .notDirectory)
  | .ok (.directory l) =>
    let found := (c.filesBelow l).mergeSort fun a b => decide (a ≤ b)
    (found.map (pathBelow root),
      (c.skippedBelow l).map fun names =>
        ⟨.trace, ascii "cli", ascii "Skipping " ++ pathBelow root names⟩)

end Config

end ModuleLint
