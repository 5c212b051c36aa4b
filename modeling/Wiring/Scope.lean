/-!
# Scopes

How widely an object is shared. The scopes are ordered by how long an object outlives the request
that asks for it.
-/

namespace Wiring

inductive Scope where
  /-- A new object is constructed each time. -/
  | prototype
  /-- One object is constructed on first use and shared from then on. -/
  | singleton
  /-- One object is constructed before any request is served. -/
  | eagerSingleton
deriving DecidableEq, Repr, Inhabited

namespace Scope

/-- An object of this scope is constructed before any request. -/
def isEager (scope : Scope) : Bool :=
  scope = eagerSingleton

/-- The name of the scope. -/
def text : Scope → String
  | prototype => "Prototype"
  | singleton => "Singleton"
  | eagerSingleton => "EagerSingleton"

/-- The place of the scope in the order of sharing. -/
def rank : Scope → Nat
  | prototype => 1
  | singleton => 2
  | eagerSingleton => 3

instance : LE Scope where
  le a b := a.rank ≤ b.rank

instance (a b : Scope) : Decidable (a ≤ b) :=
  inferInstanceAs (Decidable (a.rank ≤ b.rank))

end Scope

end Wiring
