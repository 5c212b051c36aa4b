import Wiring.Decimal.Basic

/-!
# Shortest digits

The fewest decimal digits that still name one floating point number, and their layout:
positional from `0.00001` up to sixteen digits before the point, with a signed exponent outside of
this range, and always with a point when positional.
-/

namespace Wiring.Decimal

/-- The reals that round to one floating point number, as quarters of a unit in its last place:
`value`, between `low` and `high`, all scaled by `2 ^ exponent`. The ends belong to it when
`closed`. -/
structure Rounding where
  low : Nat
  value : Nat
  high : Nat
  exponent : Int
  closed : Bool

/-- The reals that round to the positive finite number with these bits. -/
def Rounding.ofBits (bits : UInt64) : Rounding :=
  let fraction := bits.toNat % Nat.pow 2 52
  let power := bits.toNat / Nat.pow 2 52 % Nat.pow 2 11
  let mantissa := if power = 0 then fraction else fraction + Nat.pow 2 52
  let exponent : Int := (if power = 0 then 1 else power : Nat) - 1075
  let below := if fraction = 0 ∧ 1 < power then 1 else 2
  { low := 4 * mantissa - below
    value := 4 * mantissa
    high := 4 * mantissa + 2
    exponent := exponent - 2
    closed := mantissa % 2 = 0 }

/-- The number of digits before the decimal point of `num / den`, negative when zeros follow
the point first. -/
def pointPosition (num den : Nat) : Int :=
  if den ≤ num then
    (Nat.toDigits 10 (num / den)).length
  else
    -((List.range 400).takeWhile fun zeros => num * Nat.pow 10 (zeros + 1) < den).length

/-- A multiple of `10 ^ scale` that rounds to the number, the nearer one if two neighbours of it do;
of two that are equally near, the even one. -/
def Rounding.multiple? (r : Rounding) (scale : Int) : Option Nat :=
  let grow := Nat.pow 2 r.exponent.toNat * Nat.pow 10 (-scale).toNat
  let unit := Nat.pow 2 (-r.exponent).toNat * Nat.pow 10 scale.toNat
  let holds (n : Nat) : Bool :=
    if r.closed then r.low * grow ≤ n * unit && n * unit ≤ r.high * grow
    else r.low * grow < n * unit && n * unit < r.high * grow
  let floor := r.value * grow / unit
  let rest := r.value * grow - floor * unit
  match holds floor, holds (floor + 1) with
  | true, true =>
    some (if 2 * rest < unit ∨ (2 * rest = unit ∧ floor % 2 = 0) then floor else floor + 1)
  | true, false => some floor
  | false, true => some (floor + 1)
  | false, false => none

/-- The digits without zeros at the end, and the power of ten that makes up for these. -/
def withoutTrailingZeros (digits : Nat) (scale : Int) : Nat × Int :=
  let zeros := ((Nat.toDigits 10 digits).reverse.takeWhile (· = '0')).length
  if digits = 0 then (0, 0) else (digits / Nat.pow 10 zeros, scale + zeros)

/-- The fewest digits of a multiple of a power of ten that round to the number. -/
def Rounding.shortest (r : Rounding) : Nat × Int :=
  let point := pointPosition (r.value * Nat.pow 2 r.exponent.toNat) (Nat.pow 2 (-r.exponent).toNat)
  let found := (List.range 17).findSome? fun (more : Nat) =>
    let scale := point - (more + 1)
    (r.multiple? scale).map fun digits => withoutTrailingZeros digits scale
  found.getD (0, 0)

/-- Digits and a power of ten as text. -/
def layout (digits : Nat) (scale : Int) : String :=
  let shown := Nat.toDigits 10 digits
  let point := shown.length + scale
  let zeros (n : Int) : List Char := List.replicate n.toNat '0'
  if 0 ≤ scale ∧ point ≤ 16 then
    String.ofList (shown ++ zeros scale ++ ['.', '0'])
  else if 0 < point ∧ point ≤ 16 then
    String.ofList (shown.take point.toNat ++ '.' :: shown.drop point.toNat)
  else if -5 < point ∧ point ≤ 0 then
    String.ofList ('0' :: '.' :: zeros (-point) ++ shown)
  else
    let fraction := if shown.length = 1 then [] else '.' :: shown.drop 1
    let sign := if 0 < point then '+' else '-'
    String.ofList (shown.take 1 ++ fraction ++ ['e', sign]) ++ toString (point - 1).natAbs

/-- The shortest text that names the same floating point number. -/
def shortest (x : Decimal) : String :=
  let bits := x.magnitude.toBits
  let magnitude :=
    if bits = 0 then "0.0"
    else
      let (digits, scale) := (Rounding.ofBits bits).shortest
      layout digits scale
  if x.negative then "-" ++ magnitude else magnitude

end Wiring.Decimal
