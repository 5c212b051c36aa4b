import Mathlib.Data.Bool.AllAny
import Wiring.Proofs.Name
import Wiring.Proofs.Pattern.Notation
import Wiring.Proofs.Pattern.Places
import Wiring.Selection

/-!
# What a namespace selects

For an argument of letters, digits, underscores and dots, the two ways to compare it with the name of
a class come to much the same: as a pattern, it has a dot stand for any character but a line feed, and
a whole namespace is compared with all of a name that has no dot (`selects_namespace_iff`). So a class
that is selected by the text of the argument is selected by its pattern as well.
-/

namespace Wiring

/-! ### Names and their last dots -/

theorem exists_lastDot {name : List Char} (dotted : '.' ∈ name) :
  ∃ front last, '.' ∉ last ∧ name = front ++ '.' :: last
  := by
  obtain ⟨last, front, eq, undotted⟩ := List.eq_append_cons_of_mem (List.mem_reverse.mpr dotted)
  refine ⟨front.reverse, last.reverse, by simpa using undotted, ?_⟩
  rw [← List.reverse_reverse name, eq]
  simp

theorem dropWhile_of_undotted {s : List Char} (undotted : '.' ∉ s) (rest : List Char) :
  (s.reverse ++ rest).dropWhile (· ≠ '.') = rest.dropWhile (· ≠ '.')
  := by
  apply List.dropWhile_append_of_pos
  simp only [List.mem_reverse, decide_eq_true_iff]
  rintro _ hc rfl
  contradiction

theorem namespaceOf_eq {name : String} {front last : List Char} (undotted : '.' ∉ last)
    (eq : name.toList = front ++ '.' :: last) :
  namespaceOf name = String.ofList front
  := by
  rw [namespaceOf, eq, List.reverse_append, List.reverse_cons, List.append_assoc,
    dropWhile_of_undotted undotted]
  simp

theorem namespaceOf_of_undotted {name : String} (undotted : '.' ∉ name.toList) :
  namespaceOf name = ""
  := by
  rw [namespaceOf, ← List.append_nil name.toList.reverse, dropWhile_of_undotted undotted]
  rfl

/-- The text is the name up to its last dot, or all of a name without dots. -/
def UpToLastDot (name text : List Char) : Prop :=
  (∃ last, '.' ∉ last ∧ name = text ++ '.' :: last) ∨ ('.' ∉ name ∧ text = name)

theorem upToLastDot_candidate (c : ClassDecl) :
  UpToLastDot c.name.toList (c.namespaceCandidate .pattern).toList
  := by
  have isDotted_iff : isDotted c.name ↔ '.' ∈ c.name.toList := List.contains_iff_mem
  unfold ClassDecl.namespaceCandidate
  split
  case isTrue undotted =>
    rw [isDotted_iff] at undotted
    exact .inr ⟨undotted.2, rfl⟩
  case isFalse dotted =>
    rw [isDotted_iff] at dotted
    obtain ⟨front, last, undotted, eq⟩ := exists_lastDot (not_not.mp fun h => dotted ⟨rfl, h⟩)
    rw [ClassDecl.namespaceName, namespaceOf_eq undotted eq, String.toList_ofList]
    exact .inl ⟨last, undotted, eq⟩

/-- A name has one last dot at most. -/
theorem UpToLastDot.eq {name s t : List Char} (hs : UpToLastDot name s) (ht : UpToLastDot name t) :
  s = t
  := by
  obtain ⟨last, undotted, rfl⟩ | ⟨undotted, rfl⟩ := hs
  · obtain ⟨last', undotted', eq⟩ | ⟨undotted', -⟩ := ht
    · have h := namespaceOf_eq undotted' ((String.toList_ofList).trans eq)
      rw [namespaceOf_eq undotted String.toList_ofList, String.ofList_inj] at h
      exact h
    · simp at undotted'
  · obtain ⟨last', -, rfl⟩ | ⟨-, rfl⟩ := ht
    · simp at undotted
    · rfl

namespace Pattern

/-! ### The pattern of an argument -/

/-- The texts have as many characters and are the same where the first one has no dot. Its dots
stand for any characters but line feeds. -/
def Blurs (argument text : List Char) : Prop :=
  List.Forall₂ (fun a c => if a = '.' then c ≠ '\n' else c = a) argument text

theorem blurs_self (argument : List Char) :
  Blurs argument argument
  := by
  rw [Blurs, List.forall₂_same]
  intro a _
  split
  case isTrue dot =>
    rw [dot]
    decide
  case isFalse => rfl

/-- The pattern of a character of an argument. -/
def ofArgumentChar (a : Char) : Pattern CharSet :=
  if a = '.' then .leaf .notLineFeed else .literal a

theorem denotes_ofArgumentChar (a : Char) :
  Denotes (ofArgumentChar a) fun s => ∃ c, (if a = '.' then c ≠ '\n' else c = a) ∧ s = [c]
  := by
  unfold ofArgumentChar
  split
  case isTrue =>
    have h := denotes_leaf .notLineFeed
    simp only [CharSet.contains_notLineFeed] at h
    exact h
  case isFalse =>
    have h := denotes_literal a
    simp only [exists_eq_left]
    exact h

/-- The characters of an argument one after the other denote what it blurs. -/
theorem denotes_argument (argument : List Char) :
  Denotes (all (argument.map ofArgumentChar)) (Blurs argument)
  := by
  have parted_iff : ∀ s, Parted
      (fun a part => ∃ c, (if a = '.' then c ≠ '\n' else c = a) ∧ part = [c]) argument s
        ↔ Blurs argument s := by
    intro s
    induction argument generalizing s with
    | nil => simp [Parted, Blurs]
    | cons a argument ih =>
        simp only [Parted, ih, Blurs, List.forall₂_cons_left_iff]
        constructor
        · rintro ⟨_, t, ⟨c, same, rfl⟩, others, rfl⟩
          exact ⟨c, t, same, others, rfl⟩
        · rintro ⟨c, t, same, others, rfl⟩
          exact ⟨[c], t, ⟨c, same, rfl⟩, others, rfl⟩
  intro text i j
  rw [denotes_all_map denotes_ofArgumentChar]
  simp only [parted_iff]

/-- A letter, a digit, an underscore or a dot. -/
def IsPlain (a : Char) : Prop :=
  a.isAlphanum ∨ a = '_' ∨ a = '.'

instance (a : Char) : Decidable (IsPlain a) :=
  inferInstanceAs (Decidable (_ ∨ _))

theorem written_ofArgumentChar {a : Char} (plain : IsPlain a) :
  Written [a] (ofArgumentChar a)
  := by
  unfold ofArgumentChar
  split
  case isTrue dot =>
    rw [dot]
    exact written_dot
  case isFalse other =>
    have dot_of_plain : ∀ m ∈ marks, IsPlain m → m = '.' :=
      List.all_iff_forall_prop.mp (by decide)
    apply written_literal fun mark => other (dot_of_plain a mark plain)

/-- An argument is read as its pattern between the start of a name and further pieces. -/
theorem read?_argument {argument : String} (plain : ∀ a ∈ argument.toList, IsPlain a)
    (ending : List (List Char × Pattern CharSet))
    (each : ∀ piece ∈ ending, Written piece.1 piece.2) :
  read? ("^" ++ argument ++ String.ofList (ending.flatMap Prod.fst))
    = some (.sequence .start (all (argument.toList.map ofArgumentChar ++ ending.map Prod.snd)))
  := by
  have written : ∀ piece ∈ (['^'], Pattern.start)
      :: (argument.toList.map (fun a => ([a], ofArgumentChar a)) ++ ending),
      Written piece.1 piece.2 := by
    rw [List.forall_mem_cons, List.forall_mem_append, List.forall_mem_map]
    exact ⟨written_start, fun a ha => written_ofArgumentChar (plain a ha), each⟩
  have read := read?_written written
  rw [List.flatMap_cons, List.flatMap_append, List.flatMap_map, List.flatMap_singleton',
    List.map_cons, List.map_append, List.map_map] at read
  have text : "^" ++ argument ++ String.ofList (ending.flatMap Prod.fst)
      = String.ofList (['^'] ++ (argument.toList ++ ending.flatMap Prod.fst)) := by
    apply String.toList_inj.mp
    simp
  rw [text, read]
  rfl

theorem occursIn_start_stop_iff {ps : List (Pattern CharSet)} {denoted : List Char → Prop}
    (h : Denotes (all ps) denoted) {text : String} :
  (sequence .start (all (ps ++ [.stop]))).occursIn text = true ↔ denoted text.toList
  := by
  rw [occursIn_iff]
  constructor
  · rintro ⟨_, _, _, _, ⟨rfl, rfl⟩, spans⟩
    obtain ⟨_, spans, rfl, -⟩ := spans_all_concat.mp spans
    obtain ⟨s, member, begins, length⟩ := (h _ _ _).mp spans
    rw [List.drop_zero] at begins
    rw [Nat.zero_add] at length
    rwa [← begins.eq_of_length length.symm]
  · intro member
    refine ⟨0, Nat.zero_le _, text.toList.length, 0, ⟨rfl, rfl⟩, ?_⟩
    refine spans_all_concat.mpr ⟨_, (h _ _ _).mpr ⟨_, member, ?_⟩, rfl, rfl⟩
    exact ⟨List.prefix_rfl, (Nat.zero_add _).symm⟩

end Pattern

/-! ### Selection -/

theorem NamespaceTest.ofArgument_of_read? [Dialect] {argument ending : String} {p : Pattern CharSet}
    (h : Pattern.read? ("^" ++ argument ++ ending) = some p) :
  ofArgument .pattern argument ending = .pattern p.occursIn
  := by
  simp only [ofArgument, Pattern.test?, h]

namespace ClassSelector

open Pattern

section

variable [Dialect] {bases : Bases} {argument : String} {c : ClassDecl}

theorem selects_inNamespace_literal (some : argument ≠ "") :
  (inNamespace argument).selects bases .literal c = true
    ↔ ∃ last, '.' ∉ last.toList ∧ c.name = argument ++ "." ++ last
  := by
  have candidate : c.namespaceCandidate .literal = namespaceOf c.name :=
    if_neg fun h => NamespaceMode.noConfusion h.1
  have selected : (inNamespace argument).selects bases .literal c = true
      ↔ namespaceOf c.name = argument := by
    rw [← candidate]
    apply decide_eq_true_iff
  rw [selected]
  constructor
  · rintro rfl
    have dotted : '.' ∈ c.name.toList := not_not.mp fun h => some (namespaceOf_of_undotted h)
    obtain ⟨front, last, undotted, eq⟩ := exists_lastDot dotted
    refine ⟨String.ofList last, by simpa using undotted, ?_⟩
    rw [namespaceOf_eq undotted eq]
    apply String.toList_inj.mp
    simp [eq]
  · rintro ⟨last, undotted, eq⟩
    have name_eq : c.name.toList = argument.toList ++ '.' :: last.toList := by simp [eq]
    rw [namespaceOf_eq undotted name_eq, String.ofList_toList]

theorem selects_subNamespace_literal :
  (subNamespace argument).selects bases .literal c = true ↔ ∃ rest, c.name = argument ++ rest
  := by
  have selected : (subNamespace argument).selects bases .literal c = true
      ↔ argument.toList <+: c.name.toList := List.isPrefixOf_iff_prefix
  rw [selected]
  constructor
  · rintro ⟨rest, eq⟩
    refine ⟨String.ofList rest, String.toList_inj.mp ?_⟩
    simp [eq]
  · rintro ⟨rest, eq⟩
    exact ⟨rest.toList, by simp [eq]⟩

theorem selects_inNamespace_pattern (plain : ∀ a ∈ argument.toList, IsPlain a) :
  (inNamespace argument).selects bases .pattern c = true
    ↔ ∃ candidate, UpToLastDot c.name.toList candidate ∧ Blurs argument.toList candidate
  := by
  have test : NamespaceTest.exact .pattern argument
      = .pattern (occursIn
          (.sequence .start (all (argument.toList.map ofArgumentChar ++ [.stop])))) := by
    apply NamespaceTest.ofArgument_of_read?
    apply read?_argument plain [(['$'], .stop)]
    simp [written_stop]
  rw [selects, test, NamespaceTest.acceptsWhole,
    occursIn_start_stop_iff (denotes_argument argument.toList)]
  constructor
  · intro blurs
    exact ⟨_, upToLastDot_candidate c, blurs⟩
  · rintro ⟨candidate, upTo, blurs⟩
    rwa [(upToLastDot_candidate c).eq upTo]

theorem selects_subNamespace_pattern (plain : ∀ a ∈ argument.toList, IsPlain a) :
  (subNamespace argument).selects bases .pattern c = true
    ↔ ∃ start, start <+: c.name.toList ∧ Blurs argument.toList start
  := by
  have test : NamespaceTest.front .pattern argument
      = .pattern (occursIn (.sequence .start (all (argument.toList.map ofArgumentChar)))) := by
    rw [← List.append_nil (argument.toList.map ofArgumentChar)]
    apply NamespaceTest.ofArgument_of_read?
    apply read?_argument plain []
    simp
  rw [selects, test, NamespaceTest.acceptsFront, occursIn_start_iff (denotes_argument _)]
  simp only [and_comm]

/-- What an argument of letters, digits, underscores and dots selects, as a text and as a pattern. By
its text, the whole namespace selects the names that have one more part behind it, and the front of
one all names that start so. As a pattern, the same is asked of texts that the argument blurs; the
whole namespace is compared with all of a name that has no dot. So the pattern selects what the text
selects. -/
theorem selects_namespace_iff (bases : Bases) {argument : String} (some : argument ≠ "")
    (plain : ∀ a ∈ argument.toList, IsPlain a) (c : ClassDecl) :
  ((inNamespace argument).selects bases .literal c = true
      ↔ ∃ last, '.' ∉ last.toList ∧ c.name = argument ++ "." ++ last)
    ∧ ((subNamespace argument).selects bases .literal c = true
      ↔ ∃ rest, c.name = argument ++ rest)
    ∧ ((inNamespace argument).selects bases .pattern c = true
      ↔ ∃ candidate, UpToLastDot c.name.toList candidate ∧ Blurs argument.toList candidate)
    ∧ ((subNamespace argument).selects bases .pattern c = true
      ↔ ∃ start, start <+: c.name.toList ∧ Blurs argument.toList start)
    ∧ ∀ s ∈ [inNamespace argument, subNamespace argument],
      s.selects bases .literal c = true → s.selects bases .pattern c = true
  := by
  refine ⟨selects_inNamespace_literal some, selects_subNamespace_literal,
    selects_inNamespace_pattern plain, selects_subNamespace_pattern plain, ?_⟩
  rw [List.forall_mem_cons, List.forall_mem_singleton]
  constructor
  · rw [selects_inNamespace_literal some, selects_inNamespace_pattern plain]
    rintro ⟨last, undotted, eq⟩
    refine ⟨argument.toList, .inl ⟨last.toList, undotted, ?_⟩, blurs_self _⟩
    simp [eq]
  · rw [selects_subNamespace_literal, selects_subNamespace_pattern plain]
    rintro ⟨rest, eq⟩
    refine ⟨argument.toList, ⟨rest.toList, ?_⟩, blurs_self _⟩
    simp [eq]

end

/-- As a text, the argument selects the class below it; as a pattern, one whose name has other
characters in place of the dots, too. -/
theorem selects_namespace_theatre :
  (∃ last, '.' ∉ last.toList ∧ "town.stage.Actor" = "town.stage" ++ "." ++ last)
    ∧ (inNamespace "town.stage").selects ∅ .literal { name := "town.stage.Actor" } = true
    ∧ (inNamespace "town.stage").selects ∅ .pattern { name := "town.stage.Actor" } = true
    ∧ (inNamespace "town.stage").selects ∅ .literal { name := "town_stage" } = false
    ∧ (inNamespace "town.stage").selects ∅ .pattern { name := "town_stage" } = true
  := by
  have below : ∃ last, '.' ∉ last.toList ∧ "town.stage.Actor" = "town.stage" ++ "." ++ last :=
    ⟨"Actor", by decide, by decide⟩
  have some : "town.stage" ≠ "" := by decide
  have plain : ∀ a ∈ "town.stage".toList, IsPlain a := List.all_iff_forall_prop.mp (by decide)
  obtain ⟨literal, -, -, -, widens⟩ :=
    selects_namespace_iff ∅ some plain { name := "town.stage.Actor" }
  obtain ⟨-, -, pattern, -, -⟩ := selects_namespace_iff ∅ some plain { name := "town_stage" }
  have selected := literal.mpr below
  refine ⟨below, selected, widens _ List.mem_cons_self selected, by decide, pattern.mpr ?_⟩
  exact ⟨"town_stage".toList, .inr ⟨by decide, rfl⟩, by unfold Blurs; decide⟩

end ClassSelector

end Wiring
