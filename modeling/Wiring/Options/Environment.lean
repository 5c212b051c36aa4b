import Wiring.Options.Escapes
import Wiring.Options.Setting
import Wiring.Text.Blank

/-!
# Options from the environment

A variable whose name starts with the mark of the program, in large or small letters, gives the
option named by the rest. A value is a truth value, a number, a text in double quotes, a list in
brackets or a table in braces if it reads as one, and a plain text if not.
-/

namespace Wiring.Settings.Environment

/-- What the names of the variables start with. -/
def mark : String := "WEFT_"

/-- The small form of an ASCII letter. -/
def small (text : List Char) : List Char :=
  text.map Char.toLower

/-- The name of the option that a variable gives. -/
def optionName? (variableName : String) : Option (List Char) :=
  let letters := (Text.trimmed variableName).toList
  let start := letters.take mark.length
  if small start = small mark.toList then
    some (small (Text.trimmed (String.ofList (letters.drop mark.length))).toList)
  else
    none

/-- A character that separates values inside brackets and braces. -/
def isSeparator (c : Char) : Bool :=
  c = ',' || c = '\x7b' || c = '\x7d' || c = '[' || c = ']'

/-- Digits with or without a sign. -/
def isWhole (text : List Char) : Bool :=
  let digits := Text.withoutSign text
  digits ≠ [] && digits.all Char.isDigit

/-- A whole number that 64 bits hold, one of them for the sign if the number is negative. -/
def isInteger (text : List Char) : Bool :=
  isWhole text &&
    (if text.head? = some '-' then Text.decimalNumber (Text.withoutSign text) ≤ Nat.pow 2 63
    else Text.decimalNumber (Text.withoutSign text) < UInt64.size)

/-- A number with a point. -/
def isFractional (text : List Char) : Bool :=
  let digits := Text.withoutSign text
  let isExponent (c : Char) := c = 'e' || c = 'E'
  let mantissa := digits.takeWhile (!isExponent ·)
  let exponent := digits.dropWhile (!isExponent ·)
  mantissa.count '.' = 1 && mantissa.length ≠ 1 && mantissa.all (fun c => c.isDigit || c = '.') &&
    (exponent = [] || isWhole (exponent.drop 1))

/-- A word that stands for a value. -/
def word (text : List Char) : Setting :=
  let text := Text.trimmed (String.ofList text)
  if isInteger text.toList || isFractional text.toList then .other else .text text

/-- The rest of a text behind its white space, of which only that of ASCII counts. -/
def skipBlanks (text : List Char) : List Char :=
  text.dropWhile fun c => c = ' ' || c = '\t' || c = '\n' || c = '\x0c' || c = '\r'

/-- The characters at the front of a text that fit into a number of bytes. -/
def firstBytes : Nat → List Char → List Char
  | _, [] => []
  | n, c :: rest => if c.utf8Size ≤ n then c :: firstBytes (n - c.utf8Size) rest else []

/-- The text behind an opening double quote. If it has escapes, the part in front of the first one
keeps only as many bytes as it has characters. -/
def quotedValue? (text : List Char) : Option (String × List Char) :=
  let plain := text.takeWhile fun c => c ≠ '"' && c ≠ '\\'
  let rest := text.drop plain.length
  if plain.any isForbidden then none
  else
    let kept := if rest.head? = some '\\' then firstBytes plain.length plain else plain
    quotedBody? (rest.length + 1) kept.reverse rest

mutual

/-- A value and what stands behind it and the white space there. -/
def value? : Nat → List Char → Option (Setting × List Char)
  | 0, _ => none
  | fuel + 1, text =>
    let text := skipBlanks text
    match "true".toList.isPrefixOf? text, "false".toList.isPrefixOf? text with
    | some rest, _ => some (.flag true, skipBlanks rest)
    | _, some rest => some (.flag false, skipBlanks rest)
    | none, none =>
      match text with
      | '[' :: rest => (items? fuel ']' false rest).map fun rest => (.other, skipBlanks rest)
      | '\x7b' :: rest => (items? fuel '\x7d' true rest).map fun rest => (.other, skipBlanks rest)
      | '"' :: rest => (quotedValue? rest).map fun (s, rest) => (.text s, skipBlanks rest)
      | '\'' :: c :: '\'' :: rest => some (.text (String.ofList [c]), skipBlanks rest)
      | '\'' :: _ => none
      | text =>
        some (word (text.takeWhile (!isSeparator ·)), text.dropWhile (!isSeparator ·))

/-- What stands behind the values up to a closing mark, each with a name in front if they are
`named`. -/
def items? : Nat → Char → Bool → List Char → Option (List Char)
  | 0, _, _, _ => none
  | fuel + 1, closing, named, text =>
    match text with
    | [] => none
    | c :: rest =>
      if c = closing then
        some rest
      else do
        let text ← if named then name? text else some text
        let (_, rest) ← value? fuel text
        match rest with
        | ',' :: rest => items? fuel closing named rest
        | c :: rest => if c = closing then some rest else none
        | [] => none

/-- What stands behind a name and the equals sign after it. -/
def name? (text : List Char) : Option (List Char) := do
  let text := skipBlanks text
  let rest ←
    match text with
    | '"' :: rest => (quotedValue? rest).map (·.2)
    | text =>
      let isNamed (c : Char) := c.isAlphanum || c = '_' || c = '-'
      if (text.head?.map isNamed) = some true then some (text.dropWhile isNamed) else none
  match skipBlanks rest with
  | '=' :: rest => some rest
  | _ => none

end

/-- The setting that a value stands for. -/
def setting (text : String) : Setting :=
  let letters := text.toList
  match value? (2 * letters.length + 2) letters with
  | some (value, []) => value
  | _ => .text text

/-- The settings that variables give, in their order. A dot in the name of an option leads into a
table, and a name with nothing around a dot gives none. -/
def read (given : List (String × String)) : Settings :=
  given.filterMap fun (name, value) => do
    let option ← optionName? name
    let parts := option.splitOn '.'
    if [] ∈ parts then
      none
    else if parts.length = 1 then
      some (String.ofList option, setting value)
    else
      some (String.ofList (parts.headD []), .other)

end Wiring.Settings.Environment
