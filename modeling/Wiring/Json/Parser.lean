import Wiring.Json.Basic
import Wiring.Text.Digits

/-!
# Reading JSON text

From a text to the value it writes, or nothing if it is no JSON. Each step consumes at least one
character, so the length of the text bounds the depth of the descent.
-/

namespace Wiring.Json

namespace Parser

/-- The rest of a text behind the white space at its front. -/
def skipSpace (text : List Char) : List Char :=
  text.dropWhile fun c => c = ' ' || c = '\t' || c = '\n' || c = '\r'

/-- A character written by its number, a pair of surrogates taking two numbers. -/
def numbered? (text : List Char) : Option (Char × List Char) := do
  let (unit, rest) ← Text.hexNumberOf? 4 text
  if 0xd800 ≤ unit ∧ unit ≤ 0xdbff then
    match rest with
    | '\\' :: 'u' :: rest =>
      let (low, rest) ← Text.hexNumberOf? 4 rest
      if 0xdc00 ≤ low ∧ low ≤ 0xdfff then
        pure (Char.ofNat (0x10000 + (unit - 0xd800) * 0x400 + (low - 0xdc00)), rest)
      else
        none
    | _ => none
  else if 0xdc00 ≤ unit ∧ unit ≤ 0xdfff then
    none
  else
    pure (Char.ofNat unit, rest)

/-- The character that a letter behind a backslash stands for. -/
def escaped? : Char → Option Char
  | '"' => some '"'
  | '\\' => some '\\'
  | '/' => some '/'
  | 'b' => some '\x08'
  | 'f' => some '\x0c'
  | 'n' => some '\n'
  | 'r' => some '\r'
  | 't' => some '\t'
  | _ => none

/-- The text up to the closing quote, given in reverse the characters before. -/
def stringBody : Nat → List Char → List Char → Option (String × List Char)
  | 0, _, _ => none
  | _ + 1, _, [] => none
  | _ + 1, done, '"' :: rest => some (String.ofList done.reverse, rest)
  | fuel + 1, done, '\\' :: 'u' :: rest => do
    let (c, rest) ← numbered? rest
    stringBody fuel (c :: done) rest
  | fuel + 1, done, '\\' :: c :: rest => do
    let c ← escaped? c
    stringBody fuel (c :: done) rest
  | fuel + 1, done, c :: rest =>
    if c.toNat < 0x20 ∨ c = '\\' then none else stringBody fuel (c :: done) rest

/-- The digits at the front of a text, at least one. -/
def digits? (text : List Char) : Option (List Char × List Char) :=
  match text.takeWhile Char.isDigit with
  | [] => none
  | digits => some (digits, text.dropWhile Char.isDigit)

/-- The digits of a fraction, none if there is no point. -/
def fraction? : List Char → Option (List Char × List Char)
  | '.' :: rest => digits? rest
  | text => some ([], text)

/-- The exponent, nothing if there is no mark of one. -/
def exponent? (text : List Char) : Option (Option Int × List Char) :=
  match text with
  | c :: rest =>
    if c = 'e' ∨ c = 'E' then
      match rest with
      | '-' :: rest => (digits? rest).map fun (digits, rest) =>
        (some (-Text.decimalNumber digits), rest)
      | '+' :: rest => (digits? rest).map fun (digits, rest) =>
        (some (Text.decimalNumber digits), rest)
      | rest => (digits? rest).map fun (digits, rest) =>
        (some (Text.decimalNumber digits), rest)
    else
      some (none, text)
  | [] => some (none, [])

/-- A number from its parts. A whole number that 64 bits do not hold is a decimal one, as is a
negative zero. A number that is too large for double precision is none. -/
def numberOf? (negative : Bool) (whole fraction : List Char) (exponent : Option Int) :
    Option Json :=
  let n := Text.decimalNumber whole
  if fraction = [] ∧ exponent = none ∧ !negative ∧ n < UInt64.size then
    some (.int n)
  else if fraction = [] ∧ exponent = none ∧ negative ∧ 0 < n ∧ n ≤ Nat.pow 2 63 then
    some (.int (-n))
  else
    let decimal := Decimal.ofDigits negative whole fraction (exponent.getD 0)
    if decimal.isFinite then some (.real decimal) else none

/-- The number at the front of a text that holds no sign. -/
def unsigned? (negative : Bool) (text : List Char) : Option (Json × List Char) := do
  let (whole, rest) ← digits? text
  if whole.head? = some '0' ∧ 1 < whole.length then
    none
  else
    let (fraction, rest) ← fraction? rest
    let (exponent, rest) ← exponent? rest
    let number ← numberOf? negative whole fraction exponent
    pure (number, rest)

/-- The number at the front of a text. -/
def number? : List Char → Option (Json × List Char)
  | '-' :: rest => unsigned? true rest
  | text => unsigned? false text

mutual

/-- The value at the front of a text. -/
def value? : Nat → List Char → Option (Json × List Char)
  | 0, _ => none
  | fuel + 1, text =>
    match skipSpace text with
    | '"' :: rest => (stringBody fuel [] rest).map fun (s, rest) => (.str s, rest)
    | '[' :: rest =>
      match skipSpace rest with
      | ']' :: rest => some (.arr [], rest)
      | rest => (items? fuel rest).map fun (items, rest) => (.arr items, rest)
    | '\x7b' :: rest =>
      match skipSpace rest with
      | '\x7d' :: rest => some (.obj [], rest)
      | rest => (fields? fuel [] rest).map fun (fields, rest) => (.obj fields, rest)
    | 'n' :: rest => ("ull".toList.isPrefixOf? rest).map fun rest => (.null, rest)
    | 't' :: rest => ("rue".toList.isPrefixOf? rest).map fun rest => (.bool true, rest)
    | 'f' :: rest => ("alse".toList.isPrefixOf? rest).map fun rest => (.bool false, rest)
    | rest => number? rest

/-- The items of an array up to its closing bracket. -/
def items? : Nat → List Char → Option (List Json × List Char)
  | 0, _ => none
  | fuel + 1, text =>
    match value? fuel text with
    | none => none
    | some (item, rest) =>
      match skipSpace rest with
      | ',' :: rest => (items? fuel rest).map fun (items, rest) => (item :: items, rest)
      | ']' :: rest => some ([item], rest)
      | _ => none

/-- The fields of an object up to its closing brace, given the ones before them. -/
def fields? : Nat → List (String × Json) → List Char → Option (List (String × Json) × List Char)
  | 0, _, _ => none
  | fuel + 1, done, text =>
    match skipSpace text with
    | '"' :: rest =>
      match stringBody fuel [] rest with
      | none => none
      | some (key, rest) =>
        match skipSpace rest with
        | ':' :: rest =>
          match value? fuel rest with
          | none => none
          | some (value, rest) =>
            let done := insertField key value done
            match skipSpace rest with
            | ',' :: rest => fields? fuel done rest
            | '\x7d' :: rest => some (done, rest)
            | _ => none
        | _ => none
    | _ => none

end

end Parser

/-- The value that a text writes. -/
def parse? (text : String) : Option Json :=
  let text := text.toList
  match Parser.value? (text.length + 1) text with
  | some (value, rest) => if Parser.skipSpace rest = [] then some value else none
  | none => none

end Wiring.Json
