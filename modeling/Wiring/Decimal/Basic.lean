/-!
# Decimal numbers

A number written with a fraction or an exponent, kept as its digits and the power of ten that
scales them. The digits fit a word of 64 bits; digits behind these are left out, and only count
for the power of ten if they stand before the point.
-/

namespace Wiring

/-- The number `digits · 10 ^ exponent`, negated if `negative`. Zero keeps its sign. -/
structure Decimal where
  negative : Bool
  digits : Nat
  exponent : Int
deriving DecidableEq, Repr

namespace Decimal

/-- A number with further decimal digits behind its own, as long as a word holds them, and how many
of these digits are left. -/
def extend (n : Nat) : List Char → Nat × Nat
  | [] => (n, 0)
  | c :: rest =>
    let next := 10 * n + (c.toNat - '0'.toNat)
    if next < UInt64.size then extend next rest else (n, rest.length + 1)

/-- The number written with some digits before the point, some behind it, and an exponent. -/
def ofDigits (negative : Bool) (whole fraction : List Char) (exponent : Int) : Decimal :=
  let (digits, left) := extend 0 whole
  let (digits, leftBehind) := extend digits fraction
  { negative, digits, exponent := exponent + left - (fraction.length - leftBehind : Nat) }

/-- A power of ten that a floating point number of double precision holds. -/
def power (n : Nat) : Float :=
  Float.ofScientific 1 false n

/-- The size of the number in double precision: the digits are rounded first, and scaled in one
step, or in two if the power of ten is too small for one. -/
def magnitude (x : Decimal) : Float :=
  let digits := Float.ofScientific x.digits false 0
  if x.digits = 0 ∨ x.exponent < -616 then 0
  else if 308 < x.exponent then digits * power 308 * power 308
  else if 0 ≤ x.exponent then digits * power x.exponent.toNat
  else if -308 ≤ x.exponent then digits / power (-x.exponent).toNat
  else digits / power 308 / power (-x.exponent - 308).toNat

/-- Double precision holds a number of this size. -/
def isFinite (x : Decimal) : Bool :=
  x.magnitude.isFinite

end Decimal

end Wiring
