import Wiring.Decimal.Range
import Wiring.Text.Digits

/-!
# Numbers of an options file

Whole numbers that 64 bits hold, to the base ten or to one that is named, and decimal numbers of
double precision. Any two digits may be separated by an underscore.
-/

namespace Wiring.Settings.Toml

/-- Digits, of which any two may be separated by an underscore. -/
def isDigits : List Char → Bool
  | [] => false
  | [c] => c.isDigit
  | c :: '_' :: rest => c.isDigit && isDigits rest
  | c :: rest => c.isDigit && isDigits rest

/-- Digits that do not start with a zero, but for the zero itself. -/
def isWhole (text : List Char) : Bool :=
  isDigits text && (text.head? ≠ some '0' || text.length = 1)

/-- The value of digits, with underscores between them. -/
def digitsValue (text : List Char) : Nat :=
  Text.decimalNumber (text.filter Char.isDigit)

/-- A whole number that 64 bits hold. -/
def isInteger (word : List Char) : Bool :=
  let digits := Text.withoutSign word
  isWhole digits &&
    digitsValue digits < (if word.head? = some '-' then Nat.pow 2 63 + 1 else Nat.pow 2 63)

/-- The base that a letter behind a zero stands for. -/
def base? : Char → Option Nat
  | 'x' => some 16
  | 'o' => some 8
  | 'b' => some 2
  | _ => none

/-- The number that digits to a base write, of which any two may be separated by an underscore. -/
def numberTo? (base n : Nat) : List Char → Option Nat
  | [] => none
  | [c] => digit? c
  | c :: '_' :: rest => do numberTo? base (← digit? c) rest
  | c :: rest => do numberTo? base (← digit? c) rest
where
  /-- The number with one more digit. -/
  digit? (c : Char) : Option Nat :=
    (Text.hexDigit? c).bind fun d => if d < base then some (base * n + d) else none

/-- A whole number without a sign, to a base that is named in front of it. -/
def isBased : List Char → Bool
  | '0' :: letter :: digits =>
    ((base? letter).bind fun base => numberTo? base 0 digits).any (· < Nat.pow 2 63)
  | _ => false

/-- The number written with a fraction, an exponent or both, as its digits and the power of ten
that scales them. -/
def scaled? (text : List Char) : Option (Nat × Int) :=
  let isExponent (c : Char) := c = 'e' || c = 'E'
  let mantissa := text.takeWhile (!isExponent ·)
  let exponent := text.dropWhile (!isExponent ·)
  let whole := mantissa.takeWhile (· ≠ '.')
  let fraction := mantissa.dropWhile (· ≠ '.')
  let zeros := digitsValue (Text.withoutSign (exponent.drop 1))
  if isWhole whole && (fraction = [] || isDigits (fraction.drop 1)) &&
      (exponent = [] || isDigits (Text.withoutSign (exponent.drop 1))) &&
      !(fraction = [] && exponent = []) then
    some (digitsValue mantissa,
      (if exponent[1]? = some '-' then -zeros else zeros : Int) - fraction.countP Char.isDigit)
  else
    none

/-- A decimal number, or one of the two words for no number. A number that is rounded to infinity
is none, unless it is negative. -/
def isDecimal (word : List Char) : Bool :=
  let text := Text.withoutSign word
  text = "inf".toList || text = "nan".toList ||
    (scaled? text).any fun (digits, exponent) =>
      word.head? = some '-' || !Decimal.isBeyondBound digits exponent

/-- A number of any kind. -/
def isNumber (word : List Char) : Bool :=
  isInteger word || isBased word || isDecimal word

end Wiring.Settings.Toml
