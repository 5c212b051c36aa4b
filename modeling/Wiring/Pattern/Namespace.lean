import Wiring.Options.Basic
import Wiring.Pattern.Places
import Wiring.Pattern.Read

/-!
# Namespace patterns

The argument of a namespace selector, ready to be compared: as a text, or as a pattern that is tied
to the start of the name and, for a whole namespace, to its end. An argument that is no pattern is
compared as a text in either case.

There are more patterns than the notation read here can write, with names for sets of characters, with
marks that tell words apart or that leave the case of letters open. What these mean is up to a dialect,
of which nothing is assumed.
-/

namespace Wiring

/-- The patterns outside of the notation that is read here: the texts that such a pattern occurs in, if
what is written is one at all. -/
class Dialect where
  occursIn? : String → Option (String → Bool)

/-- The dialect without any further patterns, where no other is given. -/
instance (priority := low) plainDialect : Dialect where
  occursIn? _ := none

/-- The texts that a pattern occurs in, if what is written is one. -/
def Pattern.test? [Dialect] (written : String) : Option (String → Bool) :=
  match read? written with
  | some p => some p.occursIn
  | none => Dialect.occursIn? written

inductive NamespaceTest where
  | literal (argument : String)
  /-- The texts that the pattern occurs in. -/
  | pattern (occursIn : String → Bool)

namespace NamespaceTest

variable [Dialect]

/-- An argument with the pattern that it becomes, if it is to be one. -/
def ofArgument (mode : NamespaceMode) (argument ending : String) : NamespaceTest :=
  match mode with
  | .literal => .literal argument
  | .pattern =>
    match Pattern.test? ("^" ++ argument ++ ending) with
    | some occursIn => .pattern occursIn
    | none => .literal argument

/-- Ready to be compared with a whole namespace. -/
def exact (mode : NamespaceMode) (argument : String) : NamespaceTest :=
  ofArgument mode argument "$"

/-- Ready to be compared with the front of a name. -/
def front (mode : NamespaceMode) (argument : String) : NamespaceTest :=
  ofArgument mode argument ""

/-- Accepts a whole namespace. -/
def acceptsWhole (p : NamespaceTest) (name : String) : Bool :=
  match p with
  | literal argument => name = argument
  | pattern occursIn => occursIn name

/-- Accepts a name that starts so. -/
def acceptsFront (p : NamespaceTest) (name : String) : Bool :=
  match p with
  | literal argument => argument.toList.isPrefixOf name.toList
  | pattern occursIn => occursIn name

end NamespaceTest

end Wiring
