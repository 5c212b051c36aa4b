import Wiring.Text.LowerCase

/-!
# Dotted names

The names of classes and modules may be dotted: what stands before the last dot is a namespace.
An identifier has no dots, so what belongs to a dotted name is stored under one made from it.
-/

namespace Wiring

/-- The identifier that a dotted name is stored under: its first letter is made small and its dots
become underscores. -/
def identifierOf (name : String) : String :=
  let letters :=
    match name.toList with
    | [] => []
    | first :: rest => Text.lowerCase first ++ rest
  String.ofList (letters.map fun c => if c = '.' then '_' else c)

/-- A dotted name up to its last dot, nothing if it has no dot. -/
def namespaceOf (name : String) : String :=
  String.ofList ((name.toList.reverse.dropWhile (· ≠ '.')).drop 1).reverse

/-- A name that has a dot. -/
def isDotted (name : String) : Bool :=
  name.toList.contains '.'

end Wiring
