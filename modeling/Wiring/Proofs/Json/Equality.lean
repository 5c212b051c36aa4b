import Wiring.Json.Basic

/-!
# Equality of JSON values

Two values are equal when they have the same shape, with the same leaves and the same keys in the
same places. Equality is decided by walking both at once.
-/

namespace Wiring.Json

mutual

/-- The two values have the same shape, leaves and keys. -/
def same : Json → Json → Bool
  | .null, .null => true
  | .bool a, .bool b => a == b
  | .int a, .int b => a == b
  | .real a, .real b => a == b
  | .str a, .str b => a == b
  | .arr items, .arr items' => sameItems items items'
  | .obj fields, .obj fields' => sameFields fields fields'
  | _, _ => false

/-- The two lists hold the same values. -/
def sameItems : List Json → List Json → Bool
  | [], [] => true
  | a :: rest, b :: rest' => a.same b && sameItems rest rest'
  | _, _ => false

/-- The two lists hold the same values under the same keys. -/
def sameFields : List (String × Json) → List (String × Json) → Bool
  | [], [] => true
  | (key, a) :: rest, (key', b) :: rest' => key == key' && a.same b && sameFields rest rest'
  | _, _ => false

end

mutual

theorem same_iff : (a b : Json) →
  (a.same b = true ↔ a = b)
  | .null, b => by cases b <;> simp [same]
  | .bool _, b => by cases b <;> simp [same]
  | .int _, b => by cases b <;> simp [same]
  | .real _, b => by cases b <;> simp [same]
  | .str _, b => by cases b <;> simp [same]
  | .arr items, b => by cases b <;> simp [same, sameItems_iff items]
  | .obj fields, b => by cases b <;> simp [same, sameFields_iff fields]

theorem sameItems_iff : (as bs : List Json) →
  (sameItems as bs = true ↔ as = bs)
  | [], bs => by cases bs <;> simp [sameItems]
  | a :: rest, bs => by cases bs <;> simp [sameItems, same_iff a, sameItems_iff rest]

theorem sameFields_iff : (as bs : List (String × Json)) →
  (sameFields as bs = true ↔ as = bs)
  | [], bs => by cases bs <;> simp [sameFields]
  | (_, a) :: rest, [] => by simp [sameFields]
  | (_, a) :: rest, (_, b) :: rest' => by
    simp [sameFields, same_iff a, sameFields_iff rest]

end

instance : DecidableEq Json := fun a b => decidable_of_iff _ (same_iff a b)

end Wiring.Json
