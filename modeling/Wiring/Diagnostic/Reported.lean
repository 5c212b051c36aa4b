import Wiring.Diagnostic.Basic

/-!
# Reported values

A computation never fails. It gives a value, and beside it the diagnostics that came up on the
way, in the order in which they did.
-/

namespace Wiring

/-- A value, and what has been reported on the way to it. -/
structure Reported (α : Type) where
  value : α
  reports : List Diagnostic := []

namespace Reported

/-- One step after another: the reports of the first come first. -/
def bind {α β : Type} (first : Reported α) (next : α → Reported β) : Reported β :=
  let second := next first.value
  { value := second.value, reports := first.reports ++ second.reports }

instance : Monad Reported where
  pure value := { value }
  bind := bind

/-- Reports one problem. -/
def one (problem : Problem) (location : Location) : Reported Unit :=
  { value := (), reports := [{ problem, location }] }

end Reported

end Wiring
