import Wiring.Options.Tables
import Wiring.Options.Toml.DateTime
import Wiring.Options.Toml.Key
import Wiring.Options.Toml.Number

/-!
# Values of an options file

A value is a text, a truth value, a number, a date, a list in brackets, which may go over several
lines, or a table in braces on one line.
-/

namespace Wiring.Settings.Toml

/-- A word that stands for a value. -/
def word? (word : List Char) : Option Setting :=
  if word = "true".toList then some (.flag true)
  else if word = "false".toList then some (.flag false)
  else if isNumber word then some .other
  else none

/-- A value that consists of no others, and what stands behind it. -/
def plain? (text : List Char) : Option (Setting × List Char) :=
  match text.head? with
  | some '"' | some '\'' => (text? text).map fun (s, rest) => (.text s, rest)
  | _ =>
    match dateTime? text with
    | some rest => some (.other, rest)
    | none =>
      let inWord (c : Char) := c.isAlphanum || c = '_' || c = '-' || c = '+' || c = '.'
      (word? (text.takeWhile inWord)).map (·, text.dropWhile inWord)

mutual

/-- A value and what stands behind it, given how deep lists and tables may still be nested. -/
def value? : Nat → Nat → List Char → Option (Setting × List Char)
  | 0, _, _ => none
  | fuel + 1, levels + 1, '[' :: rest => (items? fuel levels rest).map (.other, ·)
  | fuel + 1, levels + 1, '\x7b' :: rest =>
    match skipBlanks rest with
    | '\x7d' :: rest => some (.other, rest)
    | rest => (members? fuel levels {} rest).map (.other, ·)
  | _ + 1, _, text => plain? text

/-- What stands behind the items of a list. The last one may have a comma behind it. -/
def items? : Nat → Nat → List Char → Option (List Char)
  | 0, _, _ => none
  | fuel + 1, levels, text =>
    match skipLines false text with
    | ']' :: rest => some rest
    | text => do
      let (_, rest) ← value? fuel levels text
      match skipLines false rest with
      | ',' :: rest => items? fuel levels rest
      | ']' :: rest => some rest
      | _ => none

/-- What stands behind the members of a table in braces, given those before them. -/
def members? : Nat → Nat → Tables → List Char → Option (List Char)
  | 0, _, _, _ => none
  | fuel + 1, levels, tables, text => do
    let (key, rest) ← key? text
    let (value, rest) ← value? fuel levels (skipBlanks (← mark? '=' rest))
    let tables ← tables.set? key value
    match skipBlanks rest with
    | ',' :: rest => members? fuel levels tables rest
    | '\x7d' :: rest => some rest
    | _ => none

end

/-- What the number of lists and tables stays below that stand one within the other. -/
def nestingLimit : Nat := 80

/-- The value at the front of a text. Each character takes at most two steps of the descent. -/
def valueAt? (text : List Char) : Option (Setting × List Char) :=
  value? (2 * text.length + 2) (nestingLimit - 1) text

end Wiring.Settings.Toml
