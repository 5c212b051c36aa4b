/-!
# Sets of characters

Ranges of characters, and what can be made of them: complements, unions, intersections and
differences.
-/

namespace Wiring

/-- A set of characters. -/
inductive CharSet where
  | empty
  /-- The characters from the first to the last one. -/
  | range (first last : Char)
  | complement (set : CharSet)
  | union (left right : CharSet)
  | intersection (left right : CharSet)
  /-- The characters of the left set that the right one does not have. -/
  | difference (left right : CharSet)
  /-- The characters that only one of the sets has. -/
  | symmetricDifference (left right : CharSet)
deriving DecidableEq, Repr

namespace CharSet

/-- The character belongs to the set. -/
def contains : CharSet → Char → Bool
  | empty, _ => false
  | range first last, c => first ≤ c && c ≤ last
  | complement set, c => !set.contains c
  | union left right, c => left.contains c || right.contains c
  | intersection left right, c => left.contains c && right.contains c
  | difference left right, c => left.contains c && !right.contains c
  | symmetricDifference left right, c => left.contains c != right.contains c

/-- The set of one character. -/
def single (c : Char) : CharSet :=
  range c c

/-- The characters within one of some ranges. -/
def ofRanges (ranges : List (Char × Char)) : CharSet :=
  ranges.foldr (fun (first, last) set => (range first last).union set) empty

/-- All characters but the line feed. -/
def notLineFeed : CharSet :=
  (single '\n').complement

end CharSet

end Wiring
