import Wiring.Pattern.Basic

/-!
# Places

A place in a text of `n` characters is a number from `0` to `n`: the number of characters before
it. A set of places is kept as the number in which the bits at these places are one, so that a
pattern acts on all of its members at once. A pattern leads from the places where a stretch may
start to the places where it may end, and it occurs in a text if it leads anywhere at all.

A repetition inside a repetition is reached again and again. It remembers the places from which
its item has been tried and does not try them again, for where they lead has been said before.
-/

namespace Wiring

/-- A set of places: those at which the number has a one. -/
abbrev Places := Nat

namespace Places

/-- All places in a text of `length` characters. -/
def upTo (length : Nat) : Places :=
  Nat.pow 2 (length + 1) - 1

/-- The places in front of those characters of a text that pass a test. -/
def before (test : Char → Bool) (text : List Char) : Places :=
  text.foldr (fun c rest => 2 * rest + (test c).toNat) 0

/-- The places that are not among those known. -/
def beyond (known places : Places) : Places :=
  (known ||| places) ^^^ known

/-- The places that a number of steps lead to. Once a step changes nothing, all further ones would
change nothing either. -/
def iterate (step : Places → Places) : Nat → Places → Places
  | 0, starts => starts
  | count + 1, starts =>
    let next := step starts
    if next = starts then starts else iterate step count next

end Places

/-- What the repetitions in a pattern remember. -/
inductive Visits where
  /-- Nothing so far. -/
  | none
  /-- What the two parts of a pattern remember. -/
  | pair (left right : Visits)
  /-- The places from which the item of a repetition has been tried, and what it remembers. -/
  | tried (places : Places) (inside : Visits)

namespace Visits

/-- What the left part remembers. -/
def left : Visits → Visits
  | pair left _ => left
  | _ => none

/-- What the right part remembers. -/
def right : Visits → Visits
  | pair _ right => right
  | _ => none

/-- The places from which the item has been tried. -/
def places : Visits → Places
  | tried places _ => places
  | _ => 0

/-- What the item remembers. -/
def inside : Visits → Visits
  | tried _ inside => inside
  | _ => none

end Visits

namespace Pattern

/-- The places where one or more steps end, given those reached so far, and the places from which
the step has been tried, the ones in front of it among them. `bound` limits the number of steps. -/
def again (step : Visits → Places → Places × Visits) :
    (bound : Nat) → (reached tried front : Places) → Visits → Places × Visits
  | 0, reached, tried, _, inside => (reached, .tried tried inside)
  | bound + 1, reached, tried, front, inside =>
    if front = 0 then
      (reached, .tried tried inside)
    else
      let (ends, inside) := step inside front
      again step bound (reached ||| ends) (tried ||| ends) (.beyond tried ends) inside

/-- The places where a stretch may end that starts at one of the given places of a text of `length`
characters, apart from those that were said for other starts before. A leaf is the set of the
places in front of its characters. -/
def reach (length : Nat) : Pattern Places → Visits → Places → Places × Visits
  | .empty, visits, starts => (starts, visits)
  | .start, visits, starts => (starts &&& 1, visits)
  | .stop, visits, starts => (starts &&& Nat.pow 2 length, visits)
  | .leaf set, visits, starts => ((starts &&& set) <<< 1, visits)
  | .sequence first second, visits, starts =>
    let (middle, left) := reach length first visits.left starts
    let (ends, right) := reach length second visits.right middle
    (ends, .pair left right)
  | .either one other, visits, starts =>
    let (ends, left) := reach length one visits.left starts
    let (more, right) := reach length other visits.right starts
    (ends ||| more, .pair left right)
  | .oneOrMore item, visits, starts =>
    again (reach length item) (length + 2) 0 (visits.places ||| starts)
      (.beyond visits.places starts) visits.inside
  | .times item count, visits, starts =>
    (Places.iterate (fun starts => (reach length item .none starts).1) count starts, visits)

/-- Some stretch of the text is spanned. -/
def occursIn (p : Pattern CharSet) (text : String) : Bool :=
  let letters := text.toList
  let placed := p.map fun set => Places.before set.contains letters
  (placed.reach letters.length .none (.upTo letters.length)).1 ≠ 0

end Pattern

end Wiring
