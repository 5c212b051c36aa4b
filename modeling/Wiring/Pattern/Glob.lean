import Wiring.Pattern.Places

/-!
# Globs

A glob is selected at the start of a name. A star stands for any run of characters without a line
feed, every other character for itself, and the name may go on behind it.
-/

namespace Wiring

/-- The pattern of one character of a glob. -/
def Pattern.ofGlobChar (c : Char) : Pattern CharSet :=
  if c = '*' then .many (.leaf .notLineFeed) else .literal c

/-- The pattern of a glob. -/
def Pattern.ofGlob (glob : String) : Pattern CharSet :=
  .sequence .start (.all (glob.toList.map ofGlobChar))

/-- The name starts as the glob says. -/
def globMatches (glob name : String) : Bool :=
  (Pattern.ofGlob glob).occursIn name

end Wiring
