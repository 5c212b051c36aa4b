import Wiring.Options.Toml.Quoted

/-!
# Keys of an options file

A key consists of names with dots between them. A name has letters, digits, hyphens and underscores,
or stands in quotes.
-/

namespace Wiring.Settings.Toml

/-- A character of a name without quotes. -/
def isBare (c : Char) : Bool :=
  c.isAlphanum || c = '_' || c = '-'

/-- One name of a key. -/
def name? : List Char → Option (String × List Char)
  | '"' :: rest => quoted? rest
  | '\'' :: rest => verbatim? rest
  | text =>
    match text.takeWhile isBare with
    | [] => none
    | bare => some (String.ofList bare, text.dropWhile isBare)

/-- The names of a key, no more than a number of them, with blanks around each. -/
def names? : Nat → List Char → Option (List String × List Char)
  | 0, _ => none
  | most + 1, text => do
    let (name, rest) ← name? (skipBlanks text)
    match skipBlanks rest with
    | '.' :: rest =>
      let (names, rest) ← names? most rest
      return (name :: names, rest)
    | rest => return ([name], rest)

/-- What the number of names in a key stays below. -/
def nameLimit : Nat := 80

/-- The key at the front of a text, as the names in it, and the rest behind the blanks there. -/
def key? (text : List Char) : Option (List String × List Char) :=
  names? (nameLimit - 1) text

end Wiring.Settings.Toml
