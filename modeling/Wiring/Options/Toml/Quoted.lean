import Wiring.Options.Toml.Layout

/-!
# Quoted texts of an options file

A text stands between single quotes, in which nothing is escaped, or between double quotes. Behind
three of the quotes at once it may go over several lines; a line feed right behind these does not
belong to it, and of the quotes that end it up to two do.
-/

namespace Wiring.Settings.Toml

/-- The text behind an opening single quote. -/
def verbatim? (text : List Char) : Option (String × List Char) :=
  let inside := text.takeWhile fun c => c ≠ '\'' && !isForbidden c
  match text.drop inside.length with
  | '\'' :: rest => some (String.ofList inside, rest)
  | _ => none

/-- The quotes at the front of a text that end a text of several lines, as those that belong to it
and what stands behind the others. -/
def closing? (quote : Char) (text : List Char) : Option (List Char × List Char) :=
  let quotes := (text.takeWhile (· = quote)).take 5
  if quotes.length < 3 then none else some (quotes.drop 3, text.drop quotes.length)

/-- The lines up to the closing quotes, given in reverse the characters before them, in which
nothing is escaped. -/
def verbatimLines? (done : List Char) : List Char → Option (String × List Char)
  | [] => none
  | '\n' :: rest => verbatimLines? ('\n' :: done) rest
  | '\r' :: '\n' :: rest => verbatimLines? ('\n' :: done) rest
  | c :: rest =>
    match closing? '\'' (c :: rest) with
    | some (quotes, rest) => some (String.ofList (done.reverse ++ quotes), rest)
    | none => if isForbidden c then none else verbatimLines? (c :: done) rest

/-- The lines up to the closing quotes, given in reverse the characters before them. A backslash at
the end of a line takes away this end and all blanks and empty lines behind it. -/
def quotedLines? : Nat → List Char → List Char → Option (String × List Char)
  | 0, _, _ => none
  | _ + 1, _, [] => none
  | fuel + 1, done, '\n' :: rest => quotedLines? fuel ('\n' :: done) rest
  | fuel + 1, done, '\r' :: '\n' :: rest => quotedLines? fuel ('\n' :: done) rest
  | fuel + 1, done, '\\' :: rest =>
    match newline? (skipBlanks rest) with
    | some rest => quotedLines? fuel done (skipEmptyLines rest)
    | none => do
      let (c, rest) ← escaped? rest
      quotedLines? fuel (c :: done) rest
  | fuel + 1, done, c :: rest =>
    match closing? '"' (c :: rest) with
    | some (quotes, rest) => some (String.ofList (done.reverse ++ quotes), rest)
    | none => if isForbidden c then none else quotedLines? fuel (c :: done) rest

/-- The text at the front of a file that starts with a quote. -/
def text? : List Char → Option (String × List Char)
  | '"' :: '"' :: '"' :: rest =>
    quotedLines? (rest.length + 1) [] ((newline? rest).getD rest)
  | '\'' :: '\'' :: '\'' :: rest => verbatimLines? [] ((newline? rest).getD rest)
  | '"' :: rest => quoted? rest
  | '\'' :: rest => verbatim? rest
  | _ => none

end Wiring.Settings.Toml
