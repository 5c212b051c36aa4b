import Wiring.Name
import Mathlib.Data.List.Forall2
import Mathlib.Tactic.Common

/-!
# Names and identifiers

Two names have one identifier exactly if they are alike (`identifierOf_eq_iff`): their first letters
have the same small letter, and from there on they agree letter by letter, but for dots in the one
where the other has underscores. Only the capital I with a dot above has two letters in lower case,
so that it is like an i with a combining dot.
-/

namespace Wiring

/-- Two letters that an identifier does not tell apart: the same letter, or a dot and an
underscore. -/
def Merged (a b : Char) : Prop :=
  a = b ∨ (a = '.' ∧ b = '_') ∨ (a = '_' ∧ b = '.')

theorem merged_iff {a b : Char} :
  Merged a b ↔ (if a = '.' then '_' else a) = if b = '.' then '_' else b
  := by
  unfold Merged
  split <;> split <;> simp_all [eq_comm]

/-- The letters of two names that an identifier does not tell apart. -/
inductive Alike : List Char → List Char → Prop where
  | empty : Alike [] []
  /-- The small letters of the first letters are not told apart, nor are the others. -/
  | letters {x y : Char} {xs ys : List Char}
      (first : List.Forall₂ Merged (Text.lowerCase x) (Text.lowerCase y))
      (rest : List.Forall₂ Merged xs ys) : Alike (x :: xs) (y :: ys)
  /-- The dot above the capital I comes as a letter of its own after the small one. -/
  | dotAbove {y : Char} {xs ys : List Char} (first : Text.lowerCase y = ['i'])
      (rest : List.Forall₂ Merged xs ys) : Alike ('\u0130' :: xs) (y :: '\u0307' :: ys)
  | dotBeyond {x : Char} {xs ys : List Char} (first : Text.lowerCase x = ['i'])
      (rest : List.Forall₂ Merged xs ys) : Alike (x :: '\u0307' :: xs) ('\u0130' :: ys)

/-- The letters of a name, the first one small. -/
def uncapitalized : List Char → List Char
  | [] => []
  | first :: rest => Text.lowerCase first ++ rest

theorem lowerCase_eq (c : Char) :
  (c = '\u0130' ∧ Text.lowerCase c = ['i', '\u0307']) ∨ ∃ small, Text.lowerCase c = [small]
  := by
  unfold Text.lowerCase
  split
  · next h => exact .inl ⟨h, rfl⟩
  · exact .inr ⟨_, rfl⟩

theorem identifierOf_eq (name : String) :
  identifierOf name
    = String.ofList ((uncapitalized name.toList).map fun c => if c = '.' then '_' else c)
  := rfl

/-- Once the first letters are small, letters of one identifier are not told apart. -/
theorem identifierOf_eq_iff_forall₂ {a b : String} :
  identifierOf a = identifierOf b
    ↔ List.Forall₂ Merged (uncapitalized a.toList) (uncapitalized b.toList)
  := by
  have merged : Merged = fun a b => (if a = '.' then '_' else a) = if b = '.' then '_' else b := by
    funext a b
    apply propext merged_iff
  rw [identifierOf_eq, identifierOf_eq, String.ofList_inj, ← List.forall₂_eq_eq_eq,
    List.forall₂_map_left_iff, List.forall₂_map_right_iff, merged]

theorem uncapitalized_ne_nil (first : Char) (rest : List Char) :
  uncapitalized (first :: rest) ≠ []
  := by
  obtain ⟨-, eq⟩ | ⟨small, eq⟩ := lowerCase_eq first
  · simp [uncapitalized, eq]
  · simp [uncapitalized, eq]

theorem Merged.eq_of_left {a b : Char} (h : Merged a b) (dot : a ≠ '.') (underscore : a ≠ '_') :
  b = a
  := by
  obtain rfl | ⟨rfl, -⟩ | ⟨rfl, -⟩ := h
  · rfl
  · exact absurd rfl dot
  · exact absurd rfl underscore

theorem Merged.symm {a b : Char} (h : Merged a b) :
  Merged b a
  := merged_iff.mpr (merged_iff.mp h).symm

theorem forall₂_merged_symm {xs ys : List Char} (h : List.Forall₂ Merged xs ys) :
  List.Forall₂ Merged ys xs
  := h.flip.imp fun _ _ => .symm

theorem Alike.symm {xs ys : List Char} (h : Alike xs ys) :
  Alike ys xs
  := by
  cases h with
  | empty => exact .empty
  | letters first rest => exact .letters (forall₂_merged_symm first) (forall₂_merged_symm rest)
  | dotAbove first rest => exact .dotBeyond first (forall₂_merged_symm rest)
  | dotBeyond first rest => exact .dotAbove first (forall₂_merged_symm rest)

/-- A name that begins with the capital I with a dot above is like another that it is not told apart
from once their first letters are small. -/
theorem alike_of_dotAbove {y small : Char} {xs ys : List Char} (single : Text.lowerCase y = [small])
    (h : List.Forall₂ Merged ('i' :: '\u0307' :: xs) (small :: ys)) :
  Alike ('\u0130' :: xs) (y :: ys)
  := by
  obtain ⟨letter, h⟩ := List.forall₂_cons.mp h
  obtain ⟨dot, ys, above, rest, rfl⟩ := List.forall₂_cons_left_iff.mp h
  obtain rfl := letter.eq_of_left (by decide) (by decide)
  obtain rfl := above.eq_of_left (by decide) (by decide)
  exact .dotAbove single rest

theorem forall₂_uncapitalized_iff {xs ys : List Char} :
  List.Forall₂ Merged (uncapitalized xs) (uncapitalized ys) ↔ Alike xs ys
  := by
  constructor
  · intro h
    cases xs with
    | nil =>
        cases ys with
        | nil => exact .empty
        | cons y ys => exact absurd (List.forall₂_nil_left_iff.mp h) (uncapitalized_ne_nil y ys)
    | cons x xs =>
        cases ys with
        | nil => exact absurd (List.forall₂_nil_right_iff.mp h) (uncapitalized_ne_nil x xs)
        | cons y ys =>
            simp only [uncapitalized] at h
            obtain ⟨rfl, two⟩ | ⟨small, one⟩ := lowerCase_eq x
            · obtain ⟨rfl, -⟩ | ⟨small', one'⟩ := lowerCase_eq y
              · rw [two] at h
                obtain ⟨letter, h⟩ := List.forall₂_cons.mp h
                obtain ⟨dot, rest⟩ := List.forall₂_cons.mp h
                apply Alike.letters _ rest
                rw [two]
                exact .cons letter (.cons dot .nil)
              · rw [two, one'] at h
                apply alike_of_dotAbove one' h
            · obtain ⟨rfl, two⟩ | ⟨small', one'⟩ := lowerCase_eq y
              · rw [one, two] at h
                apply (alike_of_dotAbove one (forall₂_merged_symm h)).symm
              · rw [one, one'] at h
                obtain ⟨letter, rest⟩ := List.forall₂_cons.mp h
                apply Alike.letters _ rest
                rw [one, one']
                exact .cons letter .nil
  · intro h
    cases h with
    | empty => exact .nil
    | letters first rest => exact List.rel_append first rest
    | dotAbove first rest =>
        rw [uncapitalized, uncapitalized, first]
        exact .cons (.inl rfl) (.cons (.inl rfl) rest)
    | dotBeyond first rest =>
        rw [uncapitalized, uncapitalized, first]
        exact .cons (.inl rfl) (.cons (.inl rfl) rest)

/-- Two names have one identifier exactly if they are alike. -/
theorem identifierOf_eq_iff {a b : String} :
  identifierOf a = identifierOf b ↔ Alike a.toList b.toList
  := identifierOf_eq_iff_forall₂.trans forall₂_uncapitalized_iff

example : identifierOf "\u0130.x" = identifierOf "I\u0307_x" := by decide +kernel

end Wiring
