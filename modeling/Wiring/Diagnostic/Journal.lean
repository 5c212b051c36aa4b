import Wiring.Diagnostic.Basic

/-!
# Journals

A journal holds the diagnostics of any number of runs in the order in which they arrive. It is
shown as one numbered line for each of them.
-/

namespace Wiring

/-- The diagnostics reported so far, the oldest first. -/
structure Journal where
  entries : List Diagnostic := []
deriving DecidableEq

namespace Journal

/-- The journal with further diagnostics at its end. -/
def record (journal : Journal) (reports : List Diagnostic) : Journal :=
  { entries := journal.entries ++ reports }

/-- The number of diagnostics of a severity. -/
def countOf (severity : Severity) (journal : Journal) : Nat :=
  journal.entries.countP (·.severity = severity)

/-- Some diagnostic is an error. -/
def hasErrors (journal : Journal) : Bool :=
  journal.entries.any (·.isError)

/-- The diagnostics in the order of their texts, in which the order of arrival does not show. -/
def sorted (journal : Journal) : Journal :=
  { entries := journal.entries.mergeSort fun a b => a.text ≤ b.text }

/-- A number at the right end of four columns. -/
def fourColumns (n : Nat) : String :=
  let digits := Nat.toDigits 10 n
  String.ofList (List.replicate (4 - digits.length) ' ' ++ digits)

/-- The lines of diagnostics that are numbered from `n` on. -/
def linesFrom (n : Nat) : List Diagnostic → String
  | [] => ""
  | d :: rest => fourColumns n ++ ": " ++ d.text ++ "\n" ++ linesFrom (n + 1) rest

/-- The text of the journal. -/
def text (journal : Journal) : String :=
  linesFrom 1 journal.entries

end Journal

end Wiring
