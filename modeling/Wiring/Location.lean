/-!
# Source positions

Where a declaration or a request stands in the source. The text of a position appears in front of
every diagnostic.
-/

namespace Wiring

/-- A position in a source file. A position without a file and a line is unknown. -/
structure Location where
  file : String := ""
  line : UInt32 := 0
  column : UInt32 := 0
deriving DecidableEq, Repr, Inhabited

namespace Location

/-- A position that names neither a file nor a line. -/
def isUnknown (location : Location) : Bool :=
  location.file = "" && location.line = 0

/-- The text of a position, its parts separated by colons. -/
def text (location : Location) : String :=
  if location.isUnknown then
    "<unknown>"
  else
    location.file ++ ":" ++ toString location.line.toNat ++ ":" ++ toString location.column.toNat

end Location

end Wiring
