import Mathlib.Algebra.BigOperators.Group.List.Basic
import Wiring.Pattern.Read

/-!
# Writing patterns

Some pieces of the notation, one after the other, are read as their patterns, one after the other
(`read?_written`). A piece is an item with all the repetitions that belong to it; what stands behind
it must not be the mark of one more.
-/

namespace Wiring.Pattern

/-- No mark of a repetition stands at the front of the text. -/
def Calm (text : List Char) : Prop :=
  ∀ c ∈ text.head?, c ∉ ['*', '+', '?', '\x7b']

/-- The text is a piece that is read as the pattern, wherever it stands. -/
structure Written (text : List Char) (p : Pattern CharSet) : Prop where
  calm : Calm text
  /-- An alternative and a group go on with the piece. -/
  continues : ∀ c ∈ text.head?, c ≠ '|' ∧ c ≠ ')'
  some? : text ≠ []
  item : ∀ (fuel : Nat) (rest : List Char), Calm rest →
    ∃ q repetitions, item? (fuel + 1) (text ++ rest) = some (q, repetitions)
      ∧ repeated? (repetitions.length + 1) q repetitions = some (p, rest)

variable {text rest : List Char} {p : Pattern CharSet}

theorem calm_nil :
  Calm []
  := by
  simp [Calm]

theorem Written.calm_append (h : Written text p) (rest : List Char) :
  Calm (text ++ rest)
  := by
  obtain ⟨c, text, rfl⟩ := List.exists_cons_of_ne_nil h.some?
  exact h.calm

/-- Where no repetition is marked, a pattern is not repeated. -/
theorem repeated?_of_calm (fuel : Nat) (p : Pattern CharSet) (calm : Calm rest) :
  repeated? (fuel + 1) p rest = some (p, rest)
  := by
  cases rest with
  | nil => rfl
  | cons c rest =>
      have unmarked := calm c rfl
      simp only [List.mem_cons, List.not_mem_nil, or_false, not_or] at unmarked
      obtain ⟨star, plus, question, brace⟩ := unmarked
      rw [repeated?] <;> simp_all

/-- An item that is read by itself is a piece. -/
theorem written_of_item {c : Char} {more : List Char}
    (calm : c ∉ ['*', '+', '?', '\x7b', '|', ')'])
    (item : ∀ fuel rest, item? (fuel + 1) (c :: more ++ rest) = some (p, rest)) :
  Written (c :: more) p
  := by
  simp only [List.mem_cons, List.not_mem_nil, or_false, not_or] at calm
  refine ⟨?_, ?_, by simp, ?_⟩
  · simp [Calm, calm]
  · simp [calm]
  · intro fuel rest calm
    exact ⟨p, rest, item fuel rest, repeated?_of_calm _ p calm⟩

/-- The notation's own characters outside of sets. -/
def marks : List Char :=
  ['.', '^', '$', '\\', '[', '(', '*', '+', '?', '\x7b', '|', ')']

theorem written_literal {c : Char} (plain : c ∉ marks) :
  Written [c] (.literal c)
  := by
  simp only [marks, List.mem_cons, List.not_mem_nil, or_false, not_or] at plain
  apply written_of_item
  · simp [plain]
  · intro fuel rest
    rw [List.singleton_append, item?]
    · simp [plain]
    all_goals simp [plain]

theorem written_escaped {c : Char} (escapable : CharSet.isEscapable c) :
  Written ['\\', c] (.literal c)
  := by
  apply written_of_item (by decide)
  intro fuel rest
  have unnamed : c ≠ 'A' ∧ c ≠ 'z' := by
    constructor <;> (rintro rfl; contradiction)
  have escaped : CharSet.escaped? c = some c := by
    unfold CharSet.escaped?
    apply if_pos escapable
  have read : escape? c = some (.literal c) := by
    rw [escape?, escaped]
    · rfl
    · exact unnamed.1
    · exact unnamed.2
  simp [item?, read]

theorem written_dot :
  Written ['.'] (.leaf .notLineFeed)
  := written_of_item (by decide) fun _ _ => rfl

theorem written_start :
  Written ['^'] .start
  := written_of_item (by decide) fun _ _ => rfl

theorem written_stop :
  Written ['$'] .stop
  := written_of_item (by decide) fun _ _ => rfl

/-- Any number of characters but line feeds. -/
theorem written_run :
  Written ['.', '*'] (.many (.leaf .notLineFeed))
  := by
  refine ⟨by simp [Calm], by simp, by simp, ?_⟩
  intro fuel rest calm
  have unmarked : skipLazy rest = rest := by
    cases rest with
    | nil => rfl
    | cons c rest =>
        have := calm c rfl
        rw [skipLazy]
        rintro _ ⟨rfl, -⟩
        simp at this
  refine ⟨.leaf .notLineFeed, '*' :: rest, rfl, ?_⟩
  rw [List.length_cons, repeated?, unmarked, repeated?_of_calm _ _ calm]

/-- A piece in front of others. -/
theorem branch?_written (h : Written text p) (calm : Calm rest) (fuel : Nat) :
  branch? (fuel + 2) (text ++ rest)
    = (branch? (fuel + 1) rest).map fun (others, rest) => (.sequence p others, rest)
  := by
  obtain ⟨q, repetitions, item, repeated⟩ := h.item fuel rest calm
  obtain ⟨c, more, rfl⟩ := List.exists_cons_of_ne_nil h.some?
  obtain ⟨unbarred, unclosed⟩ := h.continues c rfl
  rw [List.cons_append] at item ⊢
  rw [branch?, item]
  · simp only [Option.bind_eq_bind, Option.bind_some, repeated]
    cases branch? (fuel + 1) rest <;> rfl
  · simp
  · rintro _ ⟨rfl, -⟩
    contradiction
  · rintro _ ⟨rfl, -⟩
    contradiction

theorem branch?_flatMap {pieces : List (List Char × Pattern CharSet)}
    (each : ∀ piece ∈ pieces, Written piece.1 piece.2) (fuel : Nat) (enough : pieces.length ≤ fuel) :
  branch? (fuel + 1) (pieces.flatMap Prod.fst) = some (.all (pieces.map Prod.snd), [])
  := by
  induction pieces generalizing fuel with
  | nil => rfl
  | cons piece pieces ih =>
      rw [List.forall_mem_cons] at each
      rw [List.length_cons] at enough
      obtain ⟨fuel, rfl⟩ : ∃ less, fuel = less + 1 := ⟨fuel - 1, by omega⟩
      have calm : Calm (pieces.flatMap Prod.fst) := by
        cases pieces with
        | nil => exact calm_nil
        | cons next pieces => exact (each.2 next List.mem_cons_self).calm_append _
      rw [List.flatMap_cons, branch?_written each.1 calm, ih each.2 fuel (by omega)]
      rfl

/-- Pieces one after the other are read as their patterns one after the other. -/
theorem read?_written {pieces : List (List Char × Pattern CharSet)}
    (each : ∀ piece ∈ pieces, Written piece.1 piece.2) :
  read? (String.ofList (pieces.flatMap Prod.fst)) = some (.all (pieces.map Prod.snd))
  := by
  have enough : pieces.length ≤ (pieces.flatMap Prod.fst).length := by
    rw [List.length_flatMap, ← List.length_map fun piece => piece.1.length]
    apply List.length_le_sum_of_one_le
    intro n hn
    obtain ⟨piece, member, rfl⟩ := List.mem_map.mp hn
    exact List.length_pos_iff.mpr (each piece member).some?
  simp only [read?, String.toList_ofList]
  rw [alternatives?, branch?_flatMap each _ (by omega)]
  rfl

end Wiring.Pattern
