import Mathlib.Tactic.SplitIfs
import Wiring.Text.Digits
import Wiring.Text.Quoted

/-!
# Reading quoted text

A text between double quotes tells where it ends and what it quotes, whatever stands behind it
(`unquoted?_quoted`).
-/

namespace Wiring.Text

/-- The character that a letter behind a backslash stands for. -/
def unescaped : Char → Char
  | '0' => '\x00'
  | 't' => '\t'
  | 'n' => '\n'
  | 'r' => '\r'
  | c => c

/-- The text up to the closing quote, and what stands behind the quote. Inside the braces of a
character that is written by its number, `number` is what has been read of it. -/
def unquotedIn? : (number : Option Nat) → List Char → Option (List Char × List Char)
  | _, [] => none
  | none, '"' :: rest => some ([], rest)
  | none, '\\' :: 'u' :: '\x7b' :: rest => unquotedIn? (some 0) rest
  | none, '\\' :: c :: rest =>
    (unquotedIn? none rest).map fun (text, rest) => (unescaped c :: text, rest)
  | none, c :: rest => (unquotedIn? none rest).map fun (text, rest) => (c :: text, rest)
  | some n, '\x7d' :: rest =>
    (unquotedIn? none rest).map fun (text, rest) => (Char.ofNat n :: text, rest)
  | some n, c :: rest => do
    let digit ← hexDigit? c
    unquotedIn? (some (16 * n + digit)) rest

/-- The text between quotes at the front of a text, and what stands behind it. -/
def unquoted? : List Char → Option (String × List Char)
  | '"' :: rest => (unquotedIn? none rest).map fun (text, rest) => (String.ofList text, rest)
  | _ => none

theorem hexDigit?_digitChar :
  ∀ d < 16, hexDigit? d.digitChar = some d ∧ d.digitChar ≠ '\x7d'
  := by
  decide

/-- The digits of a number are read as they come. -/
theorem unquotedIn?_toDigits (number n : Nat) (text : List Char) :
  ∃ scale, unquotedIn? (some number) (Nat.toDigits 16 n ++ text)
    = unquotedIn? (some (scale * number + n)) text
  := by
  induction n using Nat.strongRecOn generalizing text with
  | ind n ih =>
    rw [Nat.toDigits_eq_if (by decide)]
    split
    case isTrue small =>
      obtain ⟨digit, open_⟩ := hexDigit?_digitChar n small
      refine ⟨16, ?_⟩
      rw [List.singleton_append, unquotedIn?, digit]
      · rfl
      · exact open_
    case isFalse large =>
      obtain ⟨digit, open_⟩ := hexDigit?_digitChar (n % 16) (by omega)
      obtain ⟨scale, eq⟩ := ih (n / 16) (by omega) ((n % 16).digitChar :: text)
      refine ⟨16 * scale, ?_⟩
      rw [List.append_assoc, List.singleton_append, eq, unquotedIn?, digit]
      · simp only [Option.bind_eq_bind, Option.bind_some]
        congr 2
        rw [Nat.mul_add, ← Nat.mul_assoc, Nat.add_assoc, Nat.div_add_mod]
      · exact open_

/-- A character that is quoted is read as this character. -/
theorem unquotedIn?_quotedChar (c : Char) (text : List Char) :
  unquotedIn? none (quotedChar c ++ text)
    = (unquotedIn? none text).map fun (others, rest) => (c :: others, rest)
  := by
  unfold quotedChar
  split_ifs with quote backslash null tab feed return_ unprintable
  · subst quote
    rfl
  · subst backslash
    rfl
  · subst null
    rfl
  · subst tab
    rfl
  · subst feed
    rfl
  · subst return_
    rfl
  · obtain ⟨scale, eq⟩ := unquotedIn?_toDigits 0 c.toNat ('\x7d' :: text)
    rw [List.append_assoc, List.append_assoc]
    change unquotedIn? (some 0) (Nat.toDigits 16 c.toNat ++ '\x7d' :: text) = _
    rw [eq, Nat.mul_zero, Nat.zero_add, unquotedIn?, Char.ofNat_toNat]
  · rw [List.singleton_append, unquotedIn?]
    · exact quote
    · rintro _ rfl
      contradiction
    · rintro _ _ rfl
      contradiction

/-- A quoted text is read as it was, whatever stands behind it. -/
theorem unquoted?_quoted (text : String) (rest : List Char) :
  unquoted? ((quoted text).toList ++ rest) = some (text, rest)
  := by
  have body : ∀ letters : List Char,
      unquotedIn? none (letters.flatMap quotedChar ++ '"' :: rest) = some (letters, rest) := by
    intro letters
    induction letters with
    | nil => rfl
    | cons c letters ih =>
        rw [List.flatMap_cons, List.append_assoc, unquotedIn?_quotedChar, ih]
        rfl
  rw [quoted, String.toList_ofList, List.append_assoc, List.cons_append, List.singleton_append,
    unquoted?, body, Option.map_some]
  simp only [String.ofList_toList]

end Wiring.Text
