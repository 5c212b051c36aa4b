/-!
# The range of double precision

Which decimal numbers double precision rounds to infinity, by the size of the number alone.
-/

namespace Wiring.Decimal

/-- The least size that double precision rounds to infinity: half a step above its largest
number. -/
def bound : Nat :=
  Nat.pow 2 1024 - Nat.pow 2 970

/-- Double precision rounds the number `digits · 10 ^ exponent` to infinity. A power of ten with 309
zeros lies above the bound, and a number that is divided by more tens than it has binary digits
lies below one. -/
def isBeyondBound (digits : Nat) (exponent : Int) : Bool :=
  match exponent with
  | .ofNat zeros => digits ≠ 0 && (309 ≤ zeros || bound ≤ digits * Nat.pow 10 zeros)
  | .negSucc n => n < digits.log2 && bound * Nat.pow 10 (n + 1) ≤ digits

end Wiring.Decimal
