import Wiring.Options.Toml.Value

/-!
# Options files

An options file has one key with its value on a line, between blank lines and comments. Keys
behind the header of a table belong to that table; a header in double brackets opens the next table
of a list. A key that comes twice, or a line that is none of these, spoils the whole file.
-/

namespace Wiring.Settings.Toml

/-- The tables behind the header of a table, whose brackets are open, and the rest of the file. -/
def header? (tables : Tables) : List Char → Option (Tables × List Char)
  | '[' :: rest => do
    let (path, rest) ← key? rest
    let rest ← mark? ']' (← mark? ']' rest)
    return (← tables.append? path, ← endLine? rest)
  | rest => do
    let (path, rest) ← key? rest
    return (← tables.open? path, ← endLine? (← mark? ']' rest))

/-- The tables behind a key and its value, and the rest of the file. -/
def setting? (tables : Tables) (text : List Char) : Option (Tables × List Char) := do
  let (key, rest) ← key? text
  let (value, rest) ← valueAt? (skipBlanks (← mark? '=' rest))
  return (← tables.set? key value, ← endLine? rest)

/-- Reads a file line by line. -/
def lines? : Nat → Tables → List Char → Option Tables
  | 0, _, _ => none
  | _ + 1, tables, [] => some tables
  | fuel + 1, tables, text =>
    match skipBlanks text with
    | '[' :: rest => do
      let (tables, rest) ← header? tables rest
      lines? fuel tables rest
    | rest =>
      match endLine? rest with
      | some rest => lines? fuel tables rest
      | none => do
        let (tables, rest) ← setting? tables rest
        lines? fuel tables rest

/-- A file without the mark of its byte order. -/
def withoutMark : List Char → List Char
  | '\ufeff' :: rest => rest
  | text => text

/-- The settings of a file. -/
def read? (text : String) : Option Settings := do
  let letters := withoutMark text.toList
  return (← lines? (letters.length + 1) {} letters).settings

end Wiring.Settings.Toml
