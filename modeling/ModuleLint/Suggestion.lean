import ModuleLint.Check.Finding

/-!
Suggestions for misspelled words.

The distance of two words is the least number of bytes to insert, remove or replace that turns one
into the other, capitals and small ASCII letters being the same. It is computed row by row: a row
holds the distances of one beginning of the first word to every beginning of the second.
-/

namespace ModuleLint.Suggestion

/-- The cells of a row after its first. `corner` stands above and left of the next cell, `left`
before it, and `above` starts with the cell above it. -/
def cells (c : UInt8) : Bytes → Nat → Nat → List Nat → List Nat
  | d :: t, corner, left, up :: above =>
    let cell := min (min (up + 1) (left + 1)) (corner + if c = d then 0 else 1)
    cell :: cells c t up cell above
  | _, _, _, _ => []

/-- The row after `row`, for one more byte of the first word. -/
def nextRow (t : Bytes) (row : List Nat) (c : UInt8) : List Nat :=
  match row with
  | corner :: above => (corner + 1) :: cells c t corner (corner + 1) above
  | [] => []

/-- The distance of two words. -/
def distance (s t : Bytes) : Nat :=
  (s.toLower.foldl (nextRow t.toLower) (List.range (t.length + 1))).getLastD 0

/-- The difference of the lengths of two words. -/
def lengthGap (s t : Bytes) : Nat := (s.length - t.length) + (t.length - s.length)

/-- The better of the best candidate so far, at a distance below a bound, and the next one. -/
def better (input : Bytes) (maxDistance : UInt64) (best : Bytes × Nat) (candidate : Bytes) :
    Bytes × Nat :=
  if maxDistance.toNat < lengthGap input candidate then best
  else
    let d := distance input candidate
    if d < best.2 then (candidate, d) else best

/-- The first of the closest candidates, if it is close enough; nothing is close to no word. The
bound counts in 64 bits: one more than the largest number is zero. -/
def closest (input : Bytes) (candidates : List Bytes) (maxDistance : UInt64) : Bytes :=
  if input.isEmpty then []
  else (candidates.foldl (better input maxDistance) ([], (maxDistance + 1).toNat)).1

/-- The keys of the known findings. -/
def knownKeys : List Bytes := FindingKind.known.map (·.key)

/-- The known key that a misspelled one may mean. -/
def key (misspelled : Bytes) : Bytes := closest misspelled knownKeys 3

end ModuleLint.Suggestion
