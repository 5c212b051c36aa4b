import Wiring.Text.Digits

/-!
# Escapes in settings

The escapes inside double quotes, in an options file and in the environment: single letters, and
the number of a character in four or eight hexadecimal digits.
-/

namespace Wiring.Settings

/-- A control character that may not stand as it is: any but the tab. -/
def isForbidden (c : Char) : Bool :=
  (c.toNat < 0x20 && c ≠ '\t') || c.toNat = 0x7f

/-- The character of a number written in `count` digits at the front of a text. -/
def numbered? (count : Nat) (text : List Char) : Option (Char × List Char) := do
  let (n, rest) ← Text.hexNumberOf? count text
  if n < 0xd800 ∨ (0xdfff < n ∧ n < 0x110000) then
    return (Char.ofNat n, rest)
  else
    none

/-- The character that a letter behind a backslash stands for. -/
def escapedLetter? : Char → Option Char
  | 'b' => some '\x08'
  | 't' => some '\t'
  | 'n' => some '\n'
  | 'f' => some '\x0c'
  | 'r' => some '\r'
  | '"' => some '"'
  | '\\' => some '\\'
  | _ => none

/-- The character that the text behind a backslash stands for. -/
def escaped? : List Char → Option (Char × List Char)
  | 'u' :: rest => numbered? 4 rest
  | 'U' :: rest => numbered? 8 rest
  | c :: rest => (escapedLetter? c).map (·, rest)
  | [] => none

/-- The characters up to the closing quote, given in reverse the ones before them. -/
def quotedBody? : Nat → List Char → List Char → Option (String × List Char)
  | 0, _, _ => none
  | _ + 1, _, [] => none
  | _ + 1, done, '"' :: rest => some (String.ofList done.reverse, rest)
  | fuel + 1, done, '\\' :: rest => do
    let (c, rest) ← escaped? rest
    quotedBody? fuel (c :: done) rest
  | fuel + 1, done, c :: rest =>
    if isForbidden c then none else quotedBody? fuel (c :: done) rest

/-- The text behind an opening double quote. -/
def quoted? (text : List Char) : Option (String × List Char) :=
  quotedBody? (text.length + 1) [] text

end Wiring.Settings
