import Mathlib.Data.Set.Card
import Mathlib.Order.Interval.Finset.Nat
import Wiring.Pattern.Places
import Wiring.Proofs.Pattern.Spans

/-!
# The search for a pattern

A pattern occurs in a text exactly if it spans a stretch of it (`occursIn_iff`). The search leads
sets of places through the pattern and remembers from where its repetitions have been tried. Such a
memory goes with all the places that a pattern has been started from before: what a further search
says, together with what has been said, is the image of all of them (`reach_spec`). A repetition has
then been tried from everything that it leads to (`Remembers`). It ends, because every round but the
last tries a place that has not been tried, and there are no more than the text has.
-/

namespace Wiring

namespace Places

/-- The places in the set. -/
def set (places : Places) : Set Nat :=
  {i | places.testBit i = true}

theorem mem_set {places : Places} {i : Nat} :
  i ∈ places.set ↔ places.testBit i = true
  := Iff.rfl

@[simp]
theorem set_zero :
  set 0 = ∅
  := by
  ext i
  simp [mem_set]

theorem set_eq_empty_iff {places : Places} :
  places.set = ∅ ↔ places = 0
  := by
  constructor
  · intro empty
    apply Nat.eq_of_testBit_eq
    intro i
    rw [Nat.zero_testBit, ← Bool.not_eq_true, ← mem_set, empty]
    apply Set.notMem_empty
  · rintro rfl
    apply set_zero

@[simp]
theorem set_or (a b : Places) :
  set (a ||| b) = a.set ∪ b.set
  := by
  ext i
  simp [mem_set]

@[simp]
theorem set_and (a b : Places) :
  set (a &&& b) = a.set ∩ b.set
  := by
  ext i
  simp [mem_set]

@[simp]
theorem set_beyond (known places : Places) :
  (beyond known places).set = places.set \ known.set
  := by
  ext i
  simp only [mem_set, beyond, Nat.testBit_xor, Nat.testBit_or, Set.mem_sdiff]
  cases known.testBit i <;> cases places.testBit i <;> simp

@[simp]
theorem set_two_pow (n : Nat) :
  set (Nat.pow 2 n) = {n}
  := by
  ext i
  change (2 ^ n).testBit i = true ↔ i = n
  rw [Nat.testBit_two_pow, decide_eq_true_iff, eq_comm]

@[simp]
theorem set_one :
  set 1 = {0}
  := set_two_pow 0

@[simp]
theorem set_upTo (length : Nat) :
  (upTo length).set = Set.Iic length
  := by
  ext i
  change (2 ^ (length + 1) - 1).testBit i = true ↔ i ≤ length
  rw [Nat.testBit_two_pow_sub_one, decide_eq_true_iff]
  omega

/-- The places behind those in the set. -/
theorem mem_set_shift {places : Places} {j : Nat} :
  j ∈ set (places <<< 1) ↔ ∃ i ∈ places.set, j = i + 1
  := by
  rw [mem_set, Nat.testBit_shiftLeft]
  cases j with
  | zero => simp
  | succ j => simp [mem_set]

theorem mem_set_before {test : Char → Bool} {text : List Char} {i : Nat} :
  i ∈ (before test text).set ↔ ∃ c, text[i]? = some c ∧ test c
  := by
  induction text generalizing i with
  | nil => simp [before]
  | cons c rest ih =>
      change (2 * before test rest + (test c).toNat).testBit i = true ↔ _
      cases i with
      | zero => cases h : test c <;> simp [h]
      | succ i =>
          rw [Nat.testBit_succ, List.getElem?_cons_succ, ← ih, mem_set]
          cases test c <;> simp [Nat.add_div]

end Places

namespace Pattern

/-- The pattern for the search in a text: its leaves are the places in front of their characters. -/
def placed (text : List Char) (p : Pattern CharSet) : Pattern Places :=
  p.map fun set => Places.before set.contains text

variable {text : List Char}

/-- What the repetitions in a pattern remember once it has been started from the given places. Those
in a part of a sequence have been started from where the part before it leads, and an item from
everything that its repetition leads to. -/
def Remembers (text : List Char) : Pattern CharSet → Visits → Set Nat → Prop
  | .sequence first second, visits, past =>
    first.Remembers text visits.left past
      ∧ second.Remembers text visits.right (image text first past)
  | .either left right, visits, past =>
    left.Remembers text visits.left past ∧ right.Remembers text visits.right past
  | .oneOrMore item, visits, past =>
    visits.places.set = closure text item past
      ∧ item.Remembers text visits.inside (closure text item past)
  | _, _, _ => True

/-- Before the first start there is nothing to remember. -/
theorem remembers_none (p : Pattern CharSet) :
  p.Remembers text .none ∅
  := by
  induction p with
  | empty | start | stop | leaf | times => trivial
  | sequence first second ih₁ ih₂ =>
      rw [Remembers, image_empty_left]
      exact ⟨ih₁, ih₂⟩
  | either left right ih₁ ih₂ => exact ⟨ih₁, ih₂⟩
  | oneOrMore item ih =>
      have nothing : closure text item ∅ = ∅ := by simp [closure]
      rw [Remembers, nothing]
      exact ⟨Places.set_zero, ih⟩

/-- A search from some places, with a memory of past ones, says where the pattern leads from all of
them, apart from what has been said before, and remembers all of them. -/
def SearchedBy (text : List Char) (p : Pattern CharSet)
    (search : Visits → Places → Places × Visits) : Prop :=
  ∀ (visits : Visits) (past : Set Nat) (starts : Places),
    p.Remembers text visits past → past ∪ starts.set ⊆ Set.Iic text.length →
      image text p past ∪ (search visits starts).1.set = image text p (past ∪ starts.set)
        ∧ p.Remembers text (search visits starts).2 (past ∪ starts.set)

variable {p q item : Pattern CharSet} {step search : Visits → Places → Places × Visits}

/-- Searched for without a memory, the pattern leads to its image. -/
theorem SearchedBy.fresh (searched : SearchedBy text p search) {starts : Places}
    (within : starts.set ⊆ Set.Iic text.length) :
  (search .none starts).1.set = image text p starts.set
  := by
  have h := (searched .none ∅ starts (remembers_none p) (by simpa using within)).1
  simpa using h

/-! ### Repetitions -/

/-- The rounds of a repetition that is to lead on from `starts`. The front is what has not been
tried yet; apart from it, everything has been tried and said, in these rounds or before them. -/
structure Round (text : List Char) (item : Pattern CharSet) (starts said : Set Nat)
    (reached tried front : Places) (inside : Visits) : Prop where
  fresh : front.set ⊆ tried.set
  within : tried.set ⊆ Set.Iic text.length
  remembers : item.Remembers text inside (tried.set \ front.set)
  ends : said ∪ reached.set = image text item (tried.set \ front.set)
  known : tried.set = starts ∪ (said ∪ reached.set)
  sound : tried.set ⊆ closure text item starts

namespace Round

variable {starts said : Set Nat} {reached tried front : Places} {inside : Visits}

/-- Once nothing is left to be tried, all that a repetition leads to has been said. -/
theorem finished (h : Round text item starts said reached tried 0 inside) :
  said ∪ reached.set = image text (.oneOrMore item) starts
    ∧ tried.set = closure text item starts ∧ item.Remembers text inside tried.set
  := by
  have remembers := h.remembers
  have ends := h.ends
  rw [Places.set_zero, Set.sdiff_empty] at remembers ends
  have all : tried.set = closure text item starts := by
    apply closure_eq_of_closed _ h.sound
    rw [← ends]
    apply h.known
  rw [ends, all, image_closure]
  exact ⟨rfl, rfl, all ▸ remembers⟩

/-- A round tries the front, and leaves what is new as the next one. -/
theorem next (searched : SearchedBy text item step)
    (h : Round text item starts said reached tried front inside) :
  let found := step inside front
  Round text item starts said (reached ||| found.1) (tried ||| found.1)
      (.beyond tried found.1) found.2
    ∧ (tried ||| found.1).set \ (Places.beyond tried found.1).set = tried.set
  := by
  intro found
  have tried_eq : tried.set \ front.set ∪ front.set = tried.set :=
    Set.sdiff_union_of_subset h.fresh
  have within : tried.set \ front.set ∪ front.set ⊆ Set.Iic text.length := by
    rw [tried_eq]
    apply h.within
  obtain ⟨image_eq, remembers⟩ := searched inside _ front h.remembers within
  rw [tried_eq] at image_eq remembers
  rw [← h.ends] at image_eq
  have left : (tried ||| found.1).set \ (Places.beyond tried found.1).set = tried.set := by
    rw [Places.set_or, Places.set_beyond, Set.union_sdiff_distrib, Set.sdiff_sdiff_right_self]
    ext i
    simp only [Set.mem_union, Set.mem_sdiff, Set.mem_inter_iff]
    tauto
  have reaches : found.1.set ⊆ image text item tried.set := by
    rw [← image_eq]
    apply Set.subset_union_right
  refine ⟨⟨?_, ?_, ?_, ?_, ?_, ?_⟩, left⟩
  · rw [Places.set_or, Places.set_beyond]
    exact Set.sdiff_subset.trans Set.subset_union_right
  · rw [Places.set_or]
    exact Set.union_subset h.within (reaches.trans (image_subset h.within))
  · rw [left]
    exact remembers
  · rw [left, Places.set_or, ← Set.union_assoc]
    exact image_eq
  · rw [Places.set_or, Places.set_or, ← Set.union_assoc said, ← Set.union_assoc, ← h.known]
  · rw [Places.set_or]
    apply Set.union_subset h.sound
    apply (reaches.trans (image_mono h.sound)).trans
    rw [image_closure]
    apply Set.subset_union_right

end Round

/-- A repetition goes on until nothing is left to be tried. What counts is the number of places that
have been tried, of which each round adds one at least. -/
theorem again_spec (searched : SearchedBy text item step) {starts said : Set Nat} (bound : Nat)
    {reached tried front : Places} {inside : Visits}
    (h : Round text item starts said reached tried front inside)
    (enough : text.length + 1 < bound + (tried.set \ front.set).ncard) :
  let found := again step bound reached tried front inside
  said ∪ found.1.set = image text (.oneOrMore item) starts
    ∧ found.2.places.set = closure text item starts
    ∧ item.Remembers text found.2.inside (closure text item starts)
  := by
  have finite : (Set.Iic text.length).Finite := Set.finite_le_nat _
  have few : ∀ {places : Set Nat}, places ⊆ Set.Iic text.length →
      places.ncard ≤ text.length + 1 := by
    intro places within
    apply (Set.ncard_le_ncard within finite).trans
    rw [← Finset.coe_Iic, Set.ncard_coe_finset, Nat.card_Iic]
  induction bound generalizing reached tried front inside with
  | zero =>
      have := few (Set.sdiff_subset.trans h.within : tried.set \ front.set ⊆ _)
      omega
  | succ bound ih =>
      intro found
      by_cases none : front = 0
      · subst none
        obtain ⟨ends, all, remembers⟩ := h.finished
        have found_eq : found = (reached, .tried tried inside) := by
          simp only [found, again, if_pos]
        rw [found_eq]
        exact ⟨ends, all, all ▸ remembers⟩
      · obtain ⟨round, left⟩ := h.next searched
        have found_eq : found = again step bound (reached ||| (step inside front).1)
            (tried ||| (step inside front).1) (.beyond tried (step inside front).1)
            (step inside front).2 := by
          simp only [found, again, if_neg none]
        rw [found_eq]
        apply ih round
        rw [left]
        -- the front is not empty, and none of it had been tried
        have more : (tried.set \ front.set).ncard < tried.set.ncard := by
          apply Set.ncard_lt_ncard _ (finite.subset h.within)
          apply sdiff_lt h.fresh
          exact fun empty => none (Places.set_eq_empty_iff.mp empty)
        omega

/-! ### Patterns -/

theorem iterate_spec (searched : SearchedBy text item search) (count : Nat) (starts : Places)
    (within : starts.set ⊆ Set.Iic text.length) :
  (Places.iterate (fun starts => (search .none starts).1) count starts).set
    = image text (.times item count) starts.set
  := by
  induction count generalizing starts with
  | zero =>
      ext j
      simp [Places.iterate, mem_image, Spans]
  | succ count ih =>
      have step_eq := searched.fresh within
      have within' : (search .none starts).1.set ⊆ Set.Iic text.length := by
        rw [step_eq]
        apply image_subset within
      rw [Places.iterate, image_times_succ, ← step_eq, ← ih _ within']
      split
      case isTrue same =>
        have fixed : ∀ n, Places.iterate (fun starts => (search .none starts).1) n starts
            = starts := by
          intro n
          cases n with
          | zero => rfl
          | succ n => rw [Places.iterate, if_pos same]
        rw [same, fixed]
      case isFalse => rfl

/-- A pattern without repetitions to be remembered is searched for if it leads to its image. -/
theorem searchedBy_of_image (forgetful : ∀ visits past, p.Remembers text visits past)
    (h : ∀ visits starts, starts.set ⊆ Set.Iic text.length →
      (search visits starts).1.set = image text p starts.set) :
  SearchedBy text p search
  := by
  intro visits past starts _ within
  rw [h _ _ (Set.subset_union_right.trans within), image_union]
  exact ⟨rfl, forgetful _ _⟩

/-- The search says where a pattern leads. -/
theorem reach_spec (text : List Char) (p : Pattern CharSet) :
  SearchedBy text p (reach text.length (p.placed text))
  := by
  induction p with
  | empty =>
      refine searchedBy_of_image (p := .empty) (fun _ _ => trivial) ?_
      intro visits starts _
      rw [image_empty]
      rfl
  | start =>
      refine searchedBy_of_image (p := .start) (fun _ _ => trivial) ?_
      intro visits starts _
      change Places.set (starts &&& 1) = _
      ext j
      rw [Places.set_and, Places.set_one, mem_image]
      simp only [Spans, Set.mem_inter_iff, Set.mem_singleton_iff]
      grind
  | stop =>
      refine searchedBy_of_image (p := .stop) (fun _ _ => trivial) ?_
      intro visits starts _
      change Places.set (starts &&& Nat.pow 2 text.length) = _
      ext j
      rw [Places.set_and, Places.set_two_pow, mem_image]
      simp only [Spans, Set.mem_inter_iff, Set.mem_singleton_iff]
      grind
  | leaf set =>
      refine searchedBy_of_image (p := .leaf set) (fun _ _ => trivial) ?_
      intro visits starts _
      change Places.set ((starts &&& Places.before set.contains text) <<< 1) = _
      ext j
      simp only [Places.mem_set_shift, Places.set_and, Set.mem_inter_iff, Places.mem_set_before,
        mem_image, Spans, and_assoc]
  | sequence first second ih₁ ih₂ =>
      intro visits past starts remembers within
      obtain ⟨middle, left⟩ := ih₁ visits.left past starts remembers.1 within
      have within' := image_subset (p := first) within
      rw [← middle] at within'
      obtain ⟨ends, right⟩ := ih₂ visits.right _ _ remembers.2 within'
      rw [middle] at ends right
      rw [image_sequence, image_sequence]
      exact ⟨ends, left, right⟩
  | either one other ih₁ ih₂ =>
      intro visits past starts remembers within
      obtain ⟨ends, left⟩ := ih₁ visits.left past starts remembers.1 within
      obtain ⟨more, right⟩ := ih₂ visits.right past starts remembers.2 within
      refine ⟨?_, left, right⟩
      rw [image_either, image_either, ← ends, ← more, Set.union_union_union_comm, ← Places.set_or]
      rfl
  | oneOrMore item ih =>
      intro visits past starts remembers within
      obtain ⟨tried, inside⟩ := remembers
      have within' : closure text item (past ∪ starts.set) ⊆ Set.Iic text.length :=
        Set.union_subset within (image_subset within)
      have kept : (visits.places ||| starts).set \ (Places.beyond visits.places starts).set
          = visits.places.set := by
        rw [Places.set_or, Places.set_beyond]
        ext i
        simp only [Set.mem_union, Set.mem_sdiff]
        tauto
      have round : Round text item (past ∪ starts.set) (image text (.oneOrMore item) past) 0
          (visits.places ||| starts) (.beyond visits.places starts) visits.inside := by
        refine ⟨?_, ?_, ?_, ?_, ?_, ?_⟩
        · rw [Places.set_or, Places.set_beyond]
          exact Set.sdiff_subset.trans Set.subset_union_right
        · rw [Places.set_or, tried]
          apply Set.union_subset _ (Set.subset_union_right.trans within)
          apply Set.Subset.trans _ within'
          rw [closure_union]
          apply Set.subset_union_left
        · rw [kept, tried]
          exact inside
        · rw [kept, tried, image_closure, Places.set_zero, Set.union_empty]
        · rw [Places.set_or, tried, closure, Places.set_zero, Set.union_empty,
            Set.union_right_comm]
        · rw [Places.set_or, tried, closure_union]
          apply Set.union_subset_union_right
          apply Set.subset_union_left
      exact again_spec ih (text.length + 2) round (by omega)
  | times item count ih =>
      refine searchedBy_of_image (p := .times item count) (fun _ _ => trivial) ?_
      intro visits starts within
      apply iterate_spec ih count starts within

/-- A pattern occurs in a text exactly if it spans a stretch of it. -/
theorem occursIn_iff {p : Pattern CharSet} {text : String} :
  p.occursIn text = true ↔ ∃ i ≤ text.toList.length, ∃ j, p.Spans text.toList i j
  := by
  have searched := (reach_spec text.toList p).fresh (Places.set_upTo text.toList.length).subset
  have occurs : p.occursIn text = true ↔ _ ≠ (0 : Places) := decide_eq_true_iff
  rw [occurs, Ne, ← Places.set_eq_empty_iff, ← Ne, ← Set.nonempty_iff_ne_empty]
  change ((placed text.toList p).reach text.toList.length .none _).1.set.Nonempty ↔ _
  rw [searched, Places.set_upTo]
  constructor
  · rintro ⟨j, i, within, spans⟩
    exact ⟨i, within, j, spans⟩
  · rintro ⟨i, within, j, spans⟩
    exact ⟨j, i, within, spans⟩

/-- A pattern that is tied to the start of a text occurs in it if the text starts with what the
pattern denotes. -/
theorem occursIn_start_iff {p : Pattern CharSet} {denoted : List Char → Prop}
    (h : Denotes p denoted) {text : String} :
  (sequence .start p).occursIn text = true ↔ ∃ s, denoted s ∧ s <+: text.toList
  := by
  rw [occursIn_iff]
  constructor
  · rintro ⟨_, _, j, _, ⟨rfl, rfl⟩, spans⟩
    obtain ⟨s, member, stretch⟩ := (h _ _ _).mp spans
    exact ⟨s, member, stretch.1⟩
  · rintro ⟨s, member, begins⟩
    refine ⟨0, Nat.zero_le _, s.length, 0, ⟨rfl, rfl⟩, ?_⟩
    exact (h _ _ _).mpr ⟨s, member, begins, (Nat.zero_add _).symm⟩

end Pattern

end Wiring
