import Wiring.Options.Escapes

/-!
# The layout of an options file

What may stand between the parts of a file without a meaning of its own: blanks, the ends of lines
and comments.
-/

namespace Wiring.Settings.Toml

/-- The rest of a text behind a mark. -/
def mark? (mark : Char) : List Char → Option (List Char)
  | c :: rest => if c = mark then some rest else none
  | [] => none

/-- The rest of a line behind its blanks. -/
def skipBlanks (text : List Char) : List Char :=
  text.dropWhile fun c => c = ' ' || c = '\t'

/-- The rest of a text behind a comment, if it starts with one. A control character inside the
comment ends it before the line ends. -/
def skipComment : List Char → List Char
  | '#' :: rest => rest.dropWhile fun c => !isForbidden c
  | text => text

/-- The rest of a text behind the end of a line. -/
def newline? : List Char → Option (List Char)
  | '\n' :: rest => some rest
  | '\r' :: '\n' :: rest => some rest
  | _ => none

/-- The rest of a file behind the end of a line, which may have a comment. -/
def endLine? (text : List Char) : Option (List Char) :=
  match skipComment (skipBlanks text) with
  | [] => some []
  | rest => newline? rest

/-- The rest of a text behind blanks and ends of lines. -/
def skipEmptyLines : List Char → List Char
  | ' ' :: rest | '\t' :: rest | '\n' :: rest | '\r' :: '\n' :: rest => skipEmptyLines rest
  | rest => rest

/-- The rest of a text behind blanks, comments and ends of lines, given whether a comment is
open. -/
def skipLines (inComment : Bool) : List Char → List Char
  | '\n' :: rest | '\r' :: '\n' :: rest => skipLines false rest
  | c :: rest =>
    if inComment then
      if isForbidden c then c :: rest else skipLines true rest
    else if c = ' ' ∨ c = '\t' then skipLines false rest
    else if c = '#' then skipLines true rest
    else c :: rest
  | [] => []

end Wiring.Settings.Toml
