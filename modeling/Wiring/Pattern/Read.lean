import Wiring.CharSet.Read
import Wiring.Pattern.Basic
import Wiring.Text.Blank
import Wiring.Text.Digits

/-!
# The notation of patterns

Letters stand for themselves, `.` for any character but a line feed, `^` and `$` for the two ends
of the text. A star, a plus, a question mark or a count in braces repeats what stands before it,
`|` separates alternatives, parentheses group, and brackets enclose a set of characters. A
backslash takes the meaning from a character. No other text is read.
-/

namespace Wiring.Pattern

/-- The pattern of a letter behind a backslash. -/
def escape? : Char → Option (Pattern CharSet)
  | 'A' => some .start
  | 'z' => some .stop
  | c => (CharSet.escaped? c).map .literal

/-! ### Counts -/

/-- The number at the front of a text, with the blanks around it. -/
def count? (text : List Char) : Option (Nat × List Char) :=
  let text := text.dropWhile Text.isBlank
  match text.takeWhile Char.isDigit with
  | [] => none
  | digits =>
    let n := Text.decimalNumber digits
    if n < UInt32.size then
      some (n, (text.dropWhile Char.isDigit).dropWhile Text.isBlank)
    else
      none

/-- The repetition that stands behind an opening brace: a count, a least count with a comma behind
it, or two counts with a comma between them. -/
def counted? (p : Pattern CharSet) (text : List Char) : Option (Pattern CharSet × List Char) := do
  let (least, rest) ← count? text
  match rest with
  | '\x7d' :: rest => return (.times p least, rest)
  | ',' :: '\x7d' :: rest => return (p.atLeast least, rest)
  | ',' :: rest =>
    let (most, rest) ← count? rest
    match rest with
    | '\x7d' :: rest =>
      if least ≤ most then return (p.between least (most - least), rest) else none
    | _ => none
  | _ => none

/-- The rest behind the mark of a repetition that takes as little as it can; which stretch it
takes makes no difference here. -/
def skipLazy : List Char → List Char
  | '?' :: rest => rest
  | rest => rest

/-- A pattern with all repetitions that stand behind it. -/
def repeated? : Nat → Pattern CharSet → List Char → Option (Pattern CharSet × List Char)
  | 0, _, _ => none
  | fuel + 1, p, '*' :: rest => repeated? fuel p.many (skipLazy rest)
  | fuel + 1, p, '+' :: rest => repeated? fuel (.oneOrMore p) (skipLazy rest)
  | fuel + 1, p, '?' :: rest => repeated? fuel p.optional (skipLazy rest)
  | fuel + 1, p, '\x7b' :: rest => do
    let (q, rest) ← counted? p rest
    repeated? fuel q (skipLazy rest)
  | _ + 1, p, rest => some (p, rest)

/-! ### Whole patterns -/

mutual

/-- Alternatives up to the end of the text or of the group. -/
def alternatives? : Nat → List Char → Option (Pattern CharSet × List Char)
  | 0, _ => none
  | fuel + 1, text => do
    let (left, rest) ← branch? fuel text
    match rest with
    | '|' :: rest =>
      let (right, rest) ← alternatives? fuel rest
      return (.either left right, rest)
    | rest => return (left, rest)

/-- One alternative: items, each with its repetitions, one after the other. -/
def branch? : Nat → List Char → Option (Pattern CharSet × List Char)
  | 0, _ => none
  | _ + 1, [] => some (.empty, [])
  | _ + 1, '|' :: rest => some (.empty, '|' :: rest)
  | _ + 1, ')' :: rest => some (.empty, ')' :: rest)
  | fuel + 1, text => do
    let (item, rest) ← item? fuel text
    let (item, rest) ← repeated? (rest.length + 1) item rest
    let (others, rest) ← branch? fuel rest
    return (.sequence item others, rest)

/-- One item without its repetitions. -/
def item? : Nat → List Char → Option (Pattern CharSet × List Char)
  | 0, _ => none
  | _ + 1, [] => none
  | _ + 1, '.' :: rest => some (.leaf .notLineFeed, rest)
  | _ + 1, '^' :: rest => some (.start, rest)
  | _ + 1, '$' :: rest => some (.stop, rest)
  | _ + 1, '\\' :: c :: rest => (escape? c).map (·, rest)
  | _ + 1, '[' :: rest => (CharSet.read? rest).map fun (set, rest) => (.leaf set, rest)
  | fuel + 1, '(' :: '?' :: ':' :: rest => group? fuel rest
  | _ + 1, '(' :: '?' :: _ => none
  | fuel + 1, '(' :: rest => group? fuel rest
  | _ + 1, c :: rest =>
    if c ∈ ['\\', '*', '+', '?', '\x7b', '|', ')'] then none else some (.literal c, rest)

/-- A group behind its opening parenthesis. -/
def group? : Nat → List Char → Option (Pattern CharSet × List Char)
  | 0, _ => none
  | fuel + 1, text => do
    let (p, rest) ← alternatives? fuel text
    match rest with
    | ')' :: rest => return (p, rest)
    | _ => none

end

/-- The pattern that a text writes. Each item takes a few steps of the descent, so four for each
character are enough. -/
def read? (text : String) : Option (Pattern CharSet) :=
  let letters := text.toList
  match alternatives? (4 * letters.length + 4) letters with
  | some (p, []) => some p
  | _ => none

end Wiring.Pattern
