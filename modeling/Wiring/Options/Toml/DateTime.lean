import Wiring.Options.Toml.Layout

/-!
# Dates and times of an options file

A date, a time of day, or a date with a time of day behind it, which may have an offset. No option
takes one, so only the text behind it counts.
-/

namespace Wiring.Settings.Toml

/-- The number written in `count` digits at the front of a text. -/
def digitsOf? (count : Nat) (text : List Char) : Option (Nat × List Char) :=
  let digits := text.take count
  if digits.length = count && digits.all Char.isDigit then
    some (Text.decimalNumber digits, text.drop count)
  else
    none

/-- A number of two digits that lies between two others. -/
def twoDigits? (least most : Nat) (text : List Char) : Option (Nat × List Char) :=
  (digitsOf? 2 text).filter fun (n, _) => least ≤ n && n ≤ most

/-- The number of days of a month. -/
def daysOfMonth (year month : Nat) : Nat :=
  if month = 2 then
    if year % 4 = 0 ∧ (year % 100 ≠ 0 ∨ year % 400 = 0) then 29 else 28
  else if month ∈ [4, 6, 9, 11] then 30
  else 31

/-- The rest of a text behind a date. -/
def date? (text : List Char) : Option (List Char) := do
  let (year, rest) ← digitsOf? 4 text
  let (month, rest) ← twoDigits? 1 12 (← mark? '-' rest)
  let (_, rest) ← twoDigits? 1 (daysOfMonth year month) (← mark? '-' rest)
  return rest

/-- The rest of a text behind hours and minutes. -/
def hoursAndMinutes? (text : List Char) : Option (List Char) := do
  let (_, rest) ← twoDigits? 0 23 text
  let (_, rest) ← twoDigits? 0 59 (← mark? ':' rest)
  return rest

/-- The rest of a text behind a time of day, which has seconds and may have a fraction of one. -/
def time? (text : List Char) : Option (List Char) := do
  let (_, rest) ← twoDigits? 0 60 (← mark? ':' (← hoursAndMinutes? text))
  match rest with
  | '.' :: digit :: rest' =>
    return if digit.isDigit then rest'.dropWhile Char.isDigit else rest
  | _ => return rest

/-- The rest of a text behind an offset, if there is one. -/
def skipOffset (text : List Char) : List Char :=
  match text with
  | c :: rest =>
    if c = 'Z' ∨ c = 'z' then rest
    else if c = '+' ∨ c = '-' then (hoursAndMinutes? rest).getD text
    else text
  | [] => []

/-- The rest of a text behind a time of day with its offset, if it comes behind the mark that
separates it from a date. -/
def skipTime (text : List Char) : List Char :=
  match text with
  | c :: rest =>
    if c = 'T' ∨ c = 't' ∨ c = ' ' then ((time? rest).map skipOffset).getD text else text
  | [] => []

/-- The rest of a text behind a date, a time or both. -/
def dateTime? (text : List Char) : Option (List Char) :=
  ((date? text).map skipTime).or (time? text)

end Wiring.Settings.Toml
