import ModuleLint.Bytes

/-!
Trees of files, and the paths into them.

A path is a text with slashes between its parts. A part that is empty or a dot stays where it is,
and two dots go up; all of them need a directory to start from. Names and paths have a greatest
length.
-/

namespace ModuleLint

inductive FileTree
  | file (content : Bytes)
  | directory (entries : List (Bytes × FileTree))

/-- Why a path leads nowhere. -/
inductive PathError
  | missing
  | notDirectory
  | nameTooLong
  deriving DecidableEq, Repr

def PathError.message : PathError → Bytes
  | .missing => ascii "No such file or directory"
  | .notDirectory => ascii "Not a directory"
  | .nameTooLong => ascii "File name too long"

/-- What a path leads to. -/
abbrev FileLookup := Bytes → Except PathError FileTree

namespace FileTree

/-- The entries of a directory; a file has none. -/
def entries : FileTree → List (Bytes × FileTree)
  | file _ => []
  | directory l => l

/-- The bytes of a file; a directory has none. -/
def content : FileTree → Bytes
  | file c => c
  | directory _ => []

def isDirectory : FileTree → Bool
  | file _ => false
  | directory _ => true

/-! ### Paths -/

/-- A place in a tree: the names that lead to it and the directories above, the last first. -/
structure Place where
  names : List Bytes
  above : List FileTree
  tree : FileTree

namespace Place

/-- One part of a path from a place. -/
def step (p : Place) (part : Bytes) : Except PathError Place :=
  if ¬ p.tree.isDirectory then .error .notDirectory
  else if part = [] ∨ part = ascii "." then .ok p
  else if part = ascii ".." then
    match p.names, p.above with
    | _ :: names, t :: above => .ok ⟨names, above, t⟩
    | _, _ => .error .missing
  else if 255 < part.length then .error .nameTooLong
  else
    match p.tree.entries.lookup part with
    | some t => .ok ⟨part :: p.names, p.tree :: p.above, t⟩
    | none => .error .missing

end Place

/-- The parts of a relative path. -/
def parts (path : Bytes) : Except PathError (List Bytes) :=
  if path.isEmpty ∨ path.head? = some Byte.slash then .error .missing
  else if 4095 < path.length then .error .nameTooLong
  else .ok (path.splitOn Byte.slash)

/-- What a relative path leads to in a tree. -/
def lookup (t : FileTree) : FileLookup := fun path => do
  let p ← (← parts path).foldlM Place.step ⟨[], [], t⟩
  return p.tree

/-! ### Changes -/

/-- Entries with that of a name set, in its place or as the last one. -/
def setEntry (name : Bytes) (t : FileTree) : List (Bytes × FileTree) → List (Bytes × FileTree)
  | [] => [(name, t)]
  | (other, u) :: rest =>
    if other = name then (name, t) :: rest else (other, u) :: setEntry name t rest

/-- Changes what some names lead to. Directories on the way have to exist, unless they are
`made`. -/
def change (made : Bool) (f : Option FileTree → Option FileTree) :
    List Bytes → FileTree → Option FileTree
  | _, file _ | [], _ => none
  | [name], directory l => (f (l.lookup name)).map fun t => directory (setEntry name t l)
  | name :: rest, directory l =>
    match l.lookup name <|> if made then some (directory []) else none with
    | none => none
    | some t => (change made f rest t).map fun t => directory (setEntry name t l)

/-- A file with changed content, a new one from none; nothing in the place of a directory. -/
def changedFile (f : Bytes → Bytes) : Option FileTree → Option FileTree
  | none => some (file (f []))
  | some (file c) => some (file (f c))
  | some (directory _) => none

/-- Writes a file that a path leads to, in a directory that exists. -/
def write (t : FileTree) (path : Bytes) (f : Bytes → Bytes) : Option FileTree := do
  let parts ← (parts path).toOption
  let name ← parts.getLast?
  if name = [] ∨ name = ascii "." ∨ name = ascii ".." ∨ 255 < name.length then none
  else
    let p ← (parts.dropLast.foldlM Place.step ⟨[], [], t⟩).toOption
    t.change false (changedFile f) (p.names.reverse ++ [name])

/-- The names in a path without dots that go up. -/
def names (path : Bytes) : List Bytes :=
  (path.splitOn Byte.slash).filter fun part => part != [] && part != ascii "."

/-- The tree with a directory, and those above it. -/
def withDirectory (t : FileTree) (path : Bytes) : FileTree :=
  (t.change true (fun t => t <|> some (directory [])) (names path)).getD t

/-- The tree with a file, and the directories above it. -/
def withFile (t : FileTree) (path content : Bytes) : FileTree :=
  (t.change true (changedFile fun _ => content) (names path)).getD t

end FileTree

end ModuleLint
