import Wiring.CharSet.Basic

/-!
# The notation of sets of characters

A set stands in brackets: characters, ranges with a hyphen, further sets in brackets and the names
of the classes of ASCII, one after the other. A circumflex in front takes the complement. Between
such lists `&&` takes the intersection, `--` the difference and `~~` the symmetric difference, from
left to right. A backslash takes the meaning from a character.
-/

namespace Wiring.CharSet

/-- The characters that a backslash may stand before to take their meaning away: those of ASCII
that are neither letters nor digits nor angle brackets. -/
def isEscapable (c : Char) : Bool :=
  c.toNat < 0x80 && !c.isAlphanum && c ≠ '<' && c ≠ '>'

/-- The character that a letter behind a backslash stands for. -/
def escaped? (c : Char) : Option Char :=
  if isEscapable c then some c
  else
    match c with
    | 'a' => some '\x07'
    | 'f' => some '\x0c'
    | 'n' => some '\n'
    | 'r' => some '\r'
    | 't' => some '\t'
    | 'v' => some '\x0b'
    | _ => none

/-- A character at the front of a text, as itself or behind a backslash. -/
def member? : List Char → Option (Char × List Char)
  | '\\' :: c :: rest => (escaped? c).map (·, rest)
  | ['\\'] => none
  | c :: rest => some (c, rest)
  | [] => none

/-- A range at the front of a text, or a single character. A hyphen in front of a closing bracket
or of another hyphen makes no range. -/
def range? (text : List Char) : Option (CharSet × List Char) := do
  let (first, rest) ← member? text
  match rest with
  | '-' :: ']' :: _ => return (single first, rest)
  | '-' :: '-' :: _ => return (single first, rest)
  | '-' :: rest =>
    let (last, rest) ← member? rest
    if first ≤ last then return (range first last, rest) else none
  | rest => return (single first, rest)

/-- The operation whose mark stands at the front of a text. -/
def operation? : List Char → Option ((CharSet → CharSet → CharSet) × List Char)
  | '&' :: '&' :: rest => some (intersection, rest)
  | '-' :: '-' :: rest => some (difference, rest)
  | '~' :: '~' :: rest => some (symmetricDifference, rest)
  | _ => none

/-- The class of ASCII characters of a name. -/
def class? : String → Option CharSet
  | "alnum" => some (ofRanges [('0', '9'), ('A', 'Z'), ('a', 'z')])
  | "alpha" => some (ofRanges [('A', 'Z'), ('a', 'z')])
  | "ascii" => some (range '\x00' '\x7f')
  | "blank" => some (ofRanges [('\t', '\t'), (' ', ' ')])
  | "cntrl" => some (ofRanges [('\x00', '\x1f'), ('\x7f', '\x7f')])
  | "digit" => some (range '0' '9')
  | "graph" => some (range '!' '~')
  | "lower" => some (range 'a' 'z')
  | "print" => some (range ' ' '~')
  | "punct" => some (ofRanges [('!', '/'), (':', '@'), ('[', '\x60'), ('\x7b', '~')])
  | "space" => some (ofRanges [('\t', '\r'), (' ', ' ')])
  | "upper" => some (range 'A' 'Z')
  | "word" => some (ofRanges [('0', '9'), ('A', 'Z'), ('_', '_'), ('a', 'z')])
  | "xdigit" => some (ofRanges [('0', '9'), ('A', 'F'), ('a', 'f')])
  | _ => none

/-- The set with its complement taken if it is to be. -/
def complementIf (negated : Bool) (set : CharSet) : CharSet :=
  if negated then set.complement else set

/-- The rest of a text behind a circumflex, and whether there was one. -/
def circumflex : List Char → Bool × List Char
  | '^' :: rest => (true, rest)
  | text => (false, text)

/-- The class that is named behind an opening bracket, between colons. -/
def named? : List Char → Option (CharSet × List Char)
  | ':' :: text => do
    let (negated, text) := circumflex text
    let name := text.takeWhile (· ≠ ':')
    match text.drop name.length with
    | ':' :: ']' :: rest => return (complementIf negated (← class? (String.ofList name)), rest)
    | _ => none
  | _ => none

/-- The characters at the start of a set that stand for themselves there: hyphens, or else a
closing bracket. -/
def opening (text : List Char) : CharSet × List Char :=
  match text.takeWhile (· = '-'), text.dropWhile (· = '-') with
  | [], ']' :: rest => (single ']', rest)
  | [], rest => (empty, rest)
  | _ :: _, rest => (single '-', rest)

mutual

/-- The set behind an opening bracket. -/
def set? : Nat → List Char → Option (CharSet × List Char)
  | 0, _ => none
  | fuel + 1, text => do
    let (negated, text) := circumflex text
    let (found, text) := opening text
    let (set, rest) ← list? fuel id found text
    return (complementIf negated set, rest)

/-- The rest of a set up to its closing bracket, given what stands in the current list so far and
what becomes of this list at its end. -/
def list? : Nat → (CharSet → CharSet) → CharSet → List Char → Option (CharSet × List Char)
  | 0, _, _, _ => none
  | _ + 1, ending, found, ']' :: rest => some (ending found, rest)
  | fuel + 1, ending, found, text =>
    match operation? text with
    | some (operation, rest) => list? fuel (operation (ending found)) empty rest
    | none => do
      let (set, rest) ← listed? fuel text
      list? fuel ending (found.union set) rest

/-- A member of a list: a class by its name, a set in brackets, a range or a character. -/
def listed? : Nat → List Char → Option (CharSet × List Char)
  | 0, _ => none
  | fuel + 1, '[' :: rest => (named? rest).or (set? fuel rest)
  | _ + 1, text => range? text

end

/-- The set that stands behind an opening bracket at the front of a text. Each character takes at
most three steps of the descent. -/
def read? (text : List Char) : Option (CharSet × List Char) :=
  set? (3 * text.length + 3) text

end Wiring.CharSet
