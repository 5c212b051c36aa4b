import Mathlib.Data.Set.Lattice
import Mathlib.Logic.Relation
import Wiring.Pattern.Basic

/-!
# What a pattern spans

A pattern spans stretches of a text, each between two places. A repetition takes one step or more
along the stretches that its item spans, and a counted one takes as many as it says. The places to
which a pattern leads from some others are its image of them.
-/

namespace Wiring

namespace CharSet

theorem contains_single {c d : Char} :
  (single c).contains d = true ↔ d = c
  := by
  rw [single, contains, Bool.and_eq_true, decide_eq_true_iff, decide_eq_true_iff]
  constructor
  · rintro ⟨low, high⟩
    apply Char.le_antisymm high low
  · rintro rfl
    exact ⟨Char.le_refl d, Char.le_refl d⟩

theorem contains_notLineFeed {c : Char} :
  notLineFeed.contains c = true ↔ c ≠ '\n'
  := by
  rw [notLineFeed, contains, Bool.not_eq_true', ← Bool.not_eq_true, contains_single]

end CharSet

namespace Pattern

variable {text : List Char}

/-- The pattern spans the stretch of the text between two places. -/
def Spans (text : List Char) : Pattern CharSet → Nat → Nat → Prop
  | .empty => Eq
  | .start => fun i j => i = 0 ∧ j = 0
  | .stop => fun i j => i = text.length ∧ j = text.length
  | .leaf set => fun i j => (∃ c, text[i]? = some c ∧ set.contains c) ∧ j = i + 1
  | .sequence first second => Relation.Comp (first.Spans text) (second.Spans text)
  | .either left right => fun i j => left.Spans text i j ∨ right.Spans text i j
  | .oneOrMore item => Relation.TransGen (item.Spans text)
  | .times item count => (Relation.Comp (item.Spans text))^[count] Eq

attribute [local simp] Spans

/-- A stretch ends in the text, and not before it starts. -/
theorem Spans.bounds {p : Pattern CharSet} {i j : Nat} (h : p.Spans text i j)
    (within : i ≤ text.length) :
  i ≤ j ∧ j ≤ text.length
  := by
  induction p generalizing i j with
  | empty =>
      obtain rfl := h
      exact ⟨le_rfl, within⟩
  | start => obtain ⟨rfl, rfl⟩ := h; simp
  | stop => obtain ⟨rfl, rfl⟩ := h; simp
  | leaf set =>
      obtain ⟨⟨c, found, _⟩, rfl⟩ := h
      have := (List.getElem?_eq_some_iff.mp found).1
      omega
  | sequence first second ih₁ ih₂ =>
      obtain ⟨k, h₁, h₂⟩ := h
      have first := ih₁ h₁ within
      have second := ih₂ h₂ first.2
      omega
  | either left right ih₁ ih₂ => exact h.elim (ih₁ · within) (ih₂ · within)
  | oneOrMore item ih =>
      induction h with
      | single h => apply ih h within
      | tail _ h before =>
          have := ih h before.2
          omega
  | times item count ih =>
      induction count generalizing i with
      | zero =>
          obtain rfl := h
          exact ⟨le_rfl, within⟩
      | succ count more =>
          rw [Spans, Function.iterate_succ_apply'] at h
          obtain ⟨k, h₁, h₂⟩ := h
          have first := ih h₁ within
          have others := more h₂ first.2
          omega

/-- The places where the pattern ends if it starts at one of the given places. -/
def image (text : List Char) (p : Pattern CharSet) (starts : Set Nat) : Set Nat :=
  {j | ∃ i ∈ starts, p.Spans text i j}

variable {p q item : Pattern CharSet} {S T : Set Nat}

theorem mem_image {j : Nat} :
  j ∈ image text p S ↔ ∃ i ∈ S, p.Spans text i j
  := Iff.rfl

@[simp]
theorem image_empty_left :
  image text p ∅ = ∅
  := by
  simp [image]

theorem image_union (text : List Char) (p : Pattern CharSet) (S T : Set Nat) :
  image text p (S ∪ T) = image text p S ∪ image text p T
  := by
  ext j
  simp only [mem_image, Set.mem_union, or_and_right, exists_or]

theorem image_mono (h : S ⊆ T) :
  image text p S ⊆ image text p T
  := by
  rintro j ⟨i, hi, spans⟩
  exact ⟨i, h hi, spans⟩

/-- A pattern does not lead out of the text. -/
theorem image_subset (within : S ⊆ Set.Iic text.length) :
  image text p S ⊆ Set.Iic text.length
  := by
  rintro j ⟨i, hi, spans⟩
  exact (spans.bounds (within hi)).2

theorem image_empty :
  image text .empty S = S
  := by
  ext j
  simp [image]

theorem image_sequence :
  image text (.sequence p q) S = image text q (image text p S)
  := by
  ext j
  constructor
  · rintro ⟨i, hi, k, hp, hq⟩
    exact ⟨k, ⟨i, hi, hp⟩, hq⟩
  · rintro ⟨k, ⟨i, hi, hp⟩, hq⟩
    exact ⟨i, hi, k, hp, hq⟩

theorem image_either :
  image text (.either p q) S = image text p S ∪ image text q S
  := by
  ext j
  simp only [mem_image, Spans, Set.mem_union, and_or_left, exists_or]

theorem image_times_succ {count : Nat} :
  image text (.times item (count + 1)) S = image text (.times item count) (image text item S)
  := by
  ext j
  constructor
  · rintro ⟨i, hi, spans⟩
    rw [Spans, Function.iterate_succ_apply'] at spans
    obtain ⟨k, hk, more⟩ := spans
    exact ⟨k, ⟨i, hi, hk⟩, more⟩
  · rintro ⟨k, ⟨i, hi, hk⟩, more⟩
    refine ⟨i, hi, ?_⟩
    rw [Spans, Function.iterate_succ_apply']
    exact ⟨k, hk, more⟩

/-! ### Repetitions -/

/-- The given places and those that a repetition of the pattern leads to. -/
def closure (text : List Char) (item : Pattern CharSet) (S : Set Nat) : Set Nat :=
  S ∪ image text (.oneOrMore item) S

/-- A repetition takes a step from the places that it has reached, or a first one. -/
theorem image_closure :
  image text item (closure text item S) = image text (.oneOrMore item) S
  := by
  ext k
  constructor
  · rintro ⟨j, hj | ⟨i, hi, before⟩, last⟩
    · exact ⟨j, hj, .single last⟩
    · exact ⟨i, hi, before.tail last⟩
  · rintro ⟨i, hi, spans⟩
    cases spans with
    | single h => exact ⟨i, .inl hi, h⟩
    | tail before last => exact ⟨_, .inr ⟨i, hi, before⟩, last⟩

/-- Places that are closed under steps are all that are reached from some of them, if the others
are reached at all. -/
theorem closure_eq_of_closed (closed : T = S ∪ image text item T) (sound : T ⊆ closure text item S) :
  T = closure text item S
  := by
  apply sound.antisymm
  rintro k (hk | ⟨i, hi, spans⟩)
  · rw [closed]
    exact .inl hk
  · have step : ∀ {i j}, i ∈ T → item.Spans text i j → j ∈ T := by
      intro i j hi spans
      rw [closed]
      exact .inr ⟨i, hi, spans⟩
    have start : i ∈ T := by
      rw [closed]
      exact .inl hi
    induction spans with
    | single h => apply step start h
    | tail _ last before => apply step before last

theorem closure_union (text : List Char) (item : Pattern CharSet) (S T : Set Nat) :
  closure text item (S ∪ T) = closure text item S ∪ closure text item T
  := by
  rw [closure, image_union, closure, closure, Set.union_union_union_comm]

/-! ### Denoted texts -/

/-- The text goes on with the stretch from one place to another. -/
def Stretch (text : List Char) (i : Nat) (s : List Char) (j : Nat) : Prop :=
  s <+: text.drop i ∧ j = i + s.length

/-- The pattern spans exactly the stretches with a certain property. -/
def Denotes (p : Pattern CharSet) (denoted : List Char → Prop) : Prop :=
  ∀ (text : List Char) (i j : Nat),
    p.Spans text i j ↔ ∃ s, denoted s ∧ Stretch text i s j

theorem stretch_append_iff {i j : Nat} {s t : List Char} :
  Stretch text i (s ++ t) j ↔ ∃ k, Stretch text i s k ∧ Stretch text k t j
  := by
  constructor
  · rintro ⟨⟨rest, eq⟩, rfl⟩
    refine ⟨i + s.length, ⟨⟨t ++ rest, by rw [← eq, List.append_assoc]⟩, rfl⟩, ⟨rest, ?_⟩, ?_⟩
    · rw [← List.drop_drop, ← eq, List.append_assoc, List.drop_left]
    · rw [List.length_append, Nat.add_assoc]
  · rintro ⟨_, ⟨⟨_, eq⟩, rfl⟩, ⟨rest, more⟩, rfl⟩
    rw [← List.drop_drop, ← eq, List.drop_left] at more
    refine ⟨⟨rest, by rw [← eq, ← more, List.append_assoc]⟩, ?_⟩
    rw [List.length_append, Nat.add_assoc]

theorem stretch_singleton_iff {i j : Nat} {c : Char} :
  Stretch text i [c] j ↔ text[i]? = some c ∧ j = i + 1
  := by
  rw [Stretch, List.length_singleton, List.singleton_prefix_iff_head?_eq_some, List.head?_drop]

theorem denotes_leaf (set : CharSet) :
  Denotes (.leaf set) fun s => ∃ c, set.contains c ∧ s = [c]
  := by
  intro text i j
  rw [Spans]
  constructor
  · rintro ⟨⟨c, found, contained⟩, rfl⟩
    exact ⟨[c], ⟨c, contained, rfl⟩, stretch_singleton_iff.mpr ⟨found, rfl⟩⟩
  · rintro ⟨_, ⟨c, contained, rfl⟩, stretch⟩
    obtain ⟨found, rfl⟩ := stretch_singleton_iff.mp stretch
    exact ⟨⟨c, found, contained⟩, rfl⟩

theorem denotes_literal (c : Char) :
  Denotes (.literal c) fun s => s = [c]
  := by
  intro text i j
  rw [literal, denotes_leaf]
  simp only [CharSet.contains_single, exists_eq_left]

/-- Any number of steps, none among them. -/
theorem spans_many_iff {i j : Nat} :
  p.many.Spans text i j ↔ Relation.ReflTransGen (p.Spans text) i j
  := by
  rw [Relation.reflTransGen_iff_eq_or_transGen, many, optional, Spans, Spans, Spans, or_comm,
    eq_comm]

theorem denotes_many_leaf (set : CharSet) :
  Denotes (many (.leaf set)) fun s => ∀ c ∈ s, set.contains c
  := by
  intro text i j
  rw [spans_many_iff]
  constructor
  · intro steps
    induction steps with
    | refl => exact ⟨[], by simp, by simp [Stretch]⟩
    | tail _ last ih =>
        obtain ⟨s, all, stretch⟩ := ih
        obtain ⟨_, ⟨c, contained, rfl⟩, step⟩ := (denotes_leaf set text _ _).mp last
        refine ⟨s ++ [c], ?_, stretch_append_iff.mpr ⟨_, stretch, step⟩⟩
        apply List.forall_mem_append.mpr ⟨all, List.forall_mem_singleton.mpr contained⟩
  · rintro ⟨s, all, stretch⟩
    induction s generalizing i with
    | nil =>
        obtain rfl : j = i := stretch.2
        exact .refl
    | cons c s ih =>
        rw [List.forall_mem_cons] at all
        rw [← List.singleton_append] at stretch
        obtain ⟨k, step, others⟩ := stretch_append_iff.mp stretch
        have first : (leaf set).Spans text i k :=
          (denotes_leaf set text i k).mpr ⟨[c], ⟨c, all.1, rfl⟩, step⟩
        apply (ih _ all.2 others).head first

/-- The text is made of parts, one for each item. -/
def Parted {α : Type} (part : α → List Char → Prop) : List α → List Char → Prop
  | [], s => s = []
  | a :: items, s => ∃ first others, part a first ∧ Parted part items others ∧ s = first ++ others

/-- Patterns one after the other denote the texts made of what they denote. -/
theorem denotes_all_map {α : Type} {f : α → Pattern CharSet} {denoted : α → List Char → Prop}
    (each : ∀ a, Denotes (f a) (denoted a)) (items : List α) :
  Denotes (all (items.map f)) (Parted denoted items)
  := by
  intro text i j
  induction items generalizing i with
  | nil => simp [all, Stretch, Parted, eq_comm]
  | cons a items ih =>
      rw [List.map_cons, all, Spans]
      constructor
      · rintro ⟨k, first, others⟩
        obtain ⟨s, member, stretch⟩ := (each a text i k).mp first
        obtain ⟨t, members, stretches⟩ := (ih k).mp others
        exact ⟨_, ⟨s, t, member, members, rfl⟩, stretch_append_iff.mpr ⟨k, stretch, stretches⟩⟩
      · rintro ⟨_, ⟨s, t, member, members, rfl⟩, stretches⟩
        obtain ⟨k, stretch, stretches⟩ := stretch_append_iff.mp stretches
        exact ⟨k, (each a text i k).mpr ⟨s, member, stretch⟩, (ih k).mpr ⟨t, members, stretches⟩⟩

theorem spans_all_concat {ps : List (Pattern CharSet)} {i j : Nat} :
  (all (ps ++ [p])).Spans text i j ↔ ∃ k, (all ps).Spans text i k ∧ p.Spans text k j
  := by
  induction ps generalizing i with
  | nil => simp [all, Relation.Comp]
  | cons q ps ih =>
      rw [List.cons_append, all, all, Spans, Spans]
      simp only [Relation.Comp, ih]
      constructor
      · rintro ⟨k, first, l, others, last⟩
        exact ⟨l, ⟨k, first, others⟩, last⟩
      · rintro ⟨l, ⟨k, first, others⟩, last⟩
        exact ⟨k, first, l, others, last⟩

end Pattern

end Wiring
