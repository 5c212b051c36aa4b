import Mathlib.Data.Bool.AllAny
import Mathlib.Data.List.Basic
import Wiring.Pattern.Glob
import Wiring.Proofs.Pattern.Notation
import Wiring.Proofs.Pattern.Places

/-!
# What a glob selects

The stars of a glob part it into pieces. A name is selected exactly if it starts with these pieces,
each spelled as it is, and texts without line feeds between them (`globMatches_iff`). Written as a
pattern, with the pieces escaped and a run of characters in place of each star, a glob is always read,
and as the pattern that it has.
-/

namespace Wiring

/-- The parts of a glob between its stars. -/
def globPieces (glob : String) : List (List Char) :=
  glob.toList.splitOn '*'

/-- Pieces one after the other, with a gap between neighbours. -/
def spread (pieces gaps : List (List Char)) : List Char :=
  (List.zipWith (· ++ ·) ([] :: gaps) pieces).flatten

theorem spread_nil_cons {pieces : List (List Char)} (some : pieces ≠ []) (gap : List Char)
    (gaps : List (List Char)) :
  spread ([] :: pieces) (gap :: gaps) = gap ++ spread pieces gaps
  := by
  obtain ⟨piece, pieces, rfl⟩ := List.exists_cons_of_ne_nil some
  simp [spread]

theorem spread_modifyHead {pieces : List (List Char)} (some : pieces ≠ []) (c : Char)
    (gaps : List (List Char)) :
  spread (pieces.modifyHead (c :: ·)) gaps = c :: spread pieces gaps
  := by
  obtain ⟨piece, pieces, rfl⟩ := List.exists_cons_of_ne_nil some
  simp [spread]

namespace Pattern

/-! ### The pattern of a glob -/

/-- What a character of a glob stands for. -/
def GlobPart (c : Char) (part : List Char) : Prop :=
  if c = '*' then '\n' ∉ part else part = [c]

theorem denotes_ofGlobChar (c : Char) :
  Denotes (ofGlobChar c) (GlobPart c)
  := by
  unfold ofGlobChar GlobPart
  split
  case isTrue =>
    have h := denotes_many_leaf .notLineFeed
    simp only [CharSet.contains_notLineFeed, ne_eq, List.forall_mem_ne'] at h
    exact h
  case isFalse => apply denotes_literal

/-- The text is made of the pieces of the glob, with texts without line feeds between them. -/
def Spelled (glob s : List Char) : Prop :=
  ∃ gaps, gaps.length + 1 = (glob.splitOn '*').length ∧ (∀ gap ∈ gaps, '\n' ∉ gap)
    ∧ s = spread (glob.splitOn '*') gaps

/-- A star in front opens a gap. -/
theorem spelled_star_cons {glob s : List Char} :
  Spelled ('*' :: glob) s ↔ ∃ gap t, '\n' ∉ gap ∧ Spelled glob t ∧ s = gap ++ t
  := by
  have some := List.splitOn_ne_nil '*' glob
  rw [Spelled, List.splitOn_cons_eq_if_modifyHead, if_pos (beq_self_eq_true '*')]
  constructor
  · rintro ⟨gaps, count, lines, rfl⟩
    cases gaps with
    | nil => simp_all
    | cons gap gaps =>
        rw [List.forall_mem_cons] at lines
        rw [List.length_cons, List.length_cons, Nat.add_right_cancel_iff] at count
        exact ⟨gap, _, lines.1, ⟨gaps, count, lines.2, rfl⟩, spread_nil_cons some gap gaps⟩
  · rintro ⟨gap, _, line, ⟨gaps, count, lines, rfl⟩, rfl⟩
    refine ⟨gap :: gaps, by simp [count], List.forall_mem_cons.mpr ⟨line, lines⟩, ?_⟩
    rw [spread_nil_cons some]

/-- Any other character in front belongs to the first piece. -/
theorem spelled_cons {c : Char} (other : c ≠ '*') {glob s : List Char} :
  Spelled (c :: glob) s ↔ ∃ t, Spelled glob t ∧ s = c :: t
  := by
  have some := List.splitOn_ne_nil '*' glob
  rw [Spelled, List.splitOn_cons_eq_if_modifyHead, if_neg (by simpa using other),
    List.length_modifyHead]
  constructor
  · rintro ⟨gaps, count, lines, rfl⟩
    exact ⟨_, ⟨gaps, count, lines, rfl⟩, spread_modifyHead some c gaps⟩
  · rintro ⟨_, ⟨gaps, count, lines, rfl⟩, rfl⟩
    exact ⟨gaps, count, lines, (spread_modifyHead some c gaps).symm⟩

/-- What a glob has character by character is spelled by its pieces. -/
theorem parted_globPart_iff {glob s : List Char} :
  Parted GlobPart glob s ↔ Spelled glob s
  := by
  induction glob generalizing s with
  | nil => simp [Parted, Spelled, spread]
  | cons c glob ih =>
      simp only [Parted, ih]
      by_cases star : c = '*'
      · rw [star, spelled_star_cons]
        simp [GlobPart]
      · rw [spelled_cons star]
        simp [GlobPart, star]

/-! ### Globs in the notation of patterns -/

/-- The characters that are given a backslash in front. -/
def guarded : List Char :=
  ['\\', '.', '+', '*', '?', '(', ')', '|', '[', ']', '\x7b', '\x7d', '^', '$', '#', '&', '-', '~']

/-- A character written so that it stands for itself. -/
def escapedChar (c : Char) : List Char :=
  if c ∈ guarded then ['\\', c] else [c]

/-- A glob in the notation of patterns. -/
def globNotation (glob : String) : String :=
  String.ofList
    ('^' :: ['.', '*'].intercalate ((globPieces glob).map fun piece => piece.flatMap escapedChar))

theorem written_escapedChar (c : Char) :
  Written (escapedChar c) (.literal c)
  := by
  unfold escapedChar
  split
  case isTrue member =>
    have escapable : ∀ c ∈ guarded, CharSet.isEscapable c :=
      List.all_iff_forall_prop.mp (by decide)
    apply written_escaped (escapable c member)
  case isFalse unguarded =>
    have guarded_of_mark : marks ⊆ guarded := by decide
    apply written_literal fun mark => unguarded (guarded_of_mark mark)

/-- A character of a glob, written as its pattern. -/
def globChar (c : Char) : List Char × Pattern CharSet :=
  (if c = '*' then ['.', '*'] else escapedChar c, ofGlobChar c)

theorem written_globChar (c : Char) :
  Written (globChar c).1 (globChar c).2
  := by
  unfold globChar ofGlobChar
  dsimp only
  split
  case isTrue => exact written_run
  case isFalse => apply written_escapedChar

theorem intercalate_globPieces (glob : List Char) :
  ['.', '*'].intercalate ((glob.splitOn '*').map fun piece => piece.flatMap escapedChar)
    = (glob.map globChar).flatMap Prod.fst
  := by
  induction glob with
  | nil => rfl
  | cons c glob ih =>
      obtain ⟨piece, pieces, eq⟩ := List.exists_cons_of_ne_nil (List.splitOn_ne_nil '*' glob)
      rw [List.map_cons, List.flatMap_cons, ← ih, List.splitOn_cons_eq_if_modifyHead, eq]
      split
      case isTrue star =>
        simp [globChar, eq_of_beq star, List.intercalate]
      case isFalse other =>
        have plain : (globChar c).1 = escapedChar c := if_neg (by simpa using other)
        rw [plain]
        cases pieces <;> simp [List.intercalate]

/-- A glob can always be written as a pattern. -/
theorem read?_globNotation (glob : String) :
  read? (globNotation glob) = some (ofGlob glob)
  := by
  have written : ∀ piece ∈ (['^'], Pattern.start) :: glob.toList.map globChar,
      Written piece.1 piece.2 := by
    rw [List.forall_mem_cons, List.forall_mem_map]
    exact ⟨written_start, fun c _ => written_globChar c⟩
  have read := read?_written written
  rw [List.flatMap_cons, ← intercalate_globPieces, List.map_cons, List.map_map] at read
  exact read

end Pattern

/-- A glob is always read as a pattern, and it selects exactly the names that start with its pieces,
each spelled as it is, and with texts without line feeds between them. -/
theorem globMatches_iff (glob name : String) :
  Pattern.read? (Pattern.globNotation glob) = some (Pattern.ofGlob glob)
    ∧ (globMatches glob name = true
      ↔ ∃ gaps rest, gaps.length + 1 = (globPieces glob).length ∧ (∀ gap ∈ gaps, '\n' ∉ gap)
        ∧ name.toList = spread (globPieces glob) gaps ++ rest)
  := by
  refine ⟨Pattern.read?_globNotation glob, ?_⟩
  have denotes := Pattern.denotes_all_map Pattern.denotes_ofGlobChar glob.toList
  rw [globMatches, Pattern.ofGlob, Pattern.occursIn_start_iff denotes]
  simp only [Pattern.parted_globPart_iff]
  constructor
  · rintro ⟨_, ⟨gaps, count, lines, rfl⟩, rest, eq⟩
    exact ⟨gaps, rest, count, lines, eq.symm⟩
  · rintro ⟨gaps, rest, count, lines, eq⟩
    exact ⟨_, ⟨gaps, count, lines, rfl⟩, rest, eq.symm⟩

end Wiring
