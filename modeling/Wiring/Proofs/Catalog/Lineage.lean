import Mathlib.Logic.Relation
import Wiring.Catalog.Lineage

/-!
# Bases of bases

A type is found in the lineage of a class exactly if it is the declared base of the class, or of
one that the class extends through any number of others; and there are no more steps than classes
and two (`isSubclass_iff_extends`). Lineages that lead back to themselves are no exception.

All that comes right after a name that has been passed has been passed as well, or the climb has
come to it (`Climb.Sound`). So a climb that comes to a name for the second time has passed the whole
lineage behind it (`Climb.Sound.mem_passed`), and gives nothing up by going no further.
-/

namespace Wiring

open Relation

/-! ### Bases -/

namespace Bases

theorem ofClasses_cons (c : ClassDecl) (classes : List ClassDecl) :
  ofClasses (c :: classes) = (ofClasses classes).insert c.name c.base
  := rfl

/-- Of several classes of a name the first one gives the base. -/
theorem base?_ofClasses (classes : List ClassDecl) (name : String) :
  (ofClasses classes).base? name = (classes.find? (·.name = name)).bind (·.base)
  := by
  unfold base?
  induction classes with
  | nil => simp [ofClasses]
  | cons c classes ih =>
      rw [ofClasses_cons, Std.HashMap.getElem?_insert, List.find?_cons]
      by_cases eq : c.name = name
      · simp [eq]
      · simpa [eq] using ih

theorem size_ofClasses_le (classes : List ClassDecl) :
  (ofClasses classes).size ≤ classes.length
  := by
  induction classes with
  | nil => simp [ofClasses]
  | cons c classes ih =>
      rw [ofClasses_cons, List.length_cons]
      exact Nat.le_trans Std.HashMap.size_insert_le (Nat.succ_le_succ ih)

/-- The type is in the lineage from a name on, which counts as a part of it. -/
def InLineage (bases : Bases) (start? : Option String) (type : String) : Prop :=
  ∃ start ∈ start?, ReflTransGen (fun name base => bases.base? name = some base) start type

variable {bases : Bases} {type : String}

theorem not_inLineage_none :
  ¬ bases.InLineage none type
  := by
  simp [InLineage]

theorem inLineage_some_iff {name : String} :
  bases.InLineage (some name) type ↔ name = type ∨ bases.InLineage (bases.base? name) type
  := by
  simp only [InLineage, Option.mem_def, Option.some.injEq, exists_eq_left']
  exact ReflTransGen.cases_head_iff

end Bases

/-! ### Steps -/

namespace Climb

open Bases

/-- The type that is wanted has not been passed, and what comes right after a passed name has been
passed or come to. -/
structure Sound (bases : Bases) (wanted : String) (climb : Climb) : Prop where
  wanted_notMem : wanted ∉ climb.passed
  closed : ∀ name ∈ climb.passed, ∀ base ∈ bases.base? name,
    base ∈ climb.passed ∨ climb.name? = some base

variable {bases : Bases} {wanted : String} {climb next : Climb}

theorem sound_start (bases : Bases) (wanted : String) (start? : Option String) :
  Sound bases wanted { name? := start? }
  where
  wanted_notMem := by simp
  closed := by simp

theorem Sound.step (h : climb.Sound bases wanted) (goes : climb.step bases wanted = .inr next) :
  next.Sound bases wanted
  := by
  obtain ⟨name, come, unequal, -, rfl⟩ := of_step_eq_inr goes
  constructor
  · simp [unequal, h.wanted_notMem]
  · intro passed member base behind
    obtain rfl | member : name = passed ∨ passed ∈ climb.passed := by simpa using member
    · exact .inr behind
    · left
      obtain member | at_base := h.closed passed member base behind
      · simp [member]
      · obtain rfl : name = base := Option.some.inj (come.symm.trans at_base)
        simp

/-- From a name that has been passed before, nothing new comes. -/
theorem Sound.mem_passed (h : climb.Sound bases wanted) {name type : String}
    (come : climb.name? = some name) (again : name ∈ climb.passed)
    (behind : bases.InLineage climb.name? type) :
  type ∈ climb.passed
  := by
  obtain ⟨start, at_start, path⟩ := behind
  obtain rfl : name = start := Option.some.inj (come.symm.trans at_start)
  -- The climb stands at a passed name, so the only way out of those leads back among them.
  induction path with
  | refl => exact again
  | tail _ last ih =>
      obtain member | at_last := h.closed _ ih _ last
      · exact member
      · obtain rfl := Option.some.inj (come.symm.trans at_last)
        exact again

/-- A step that goes on leaves out no type that is wanted. -/
theorem inLineage_step (goes : climb.step bases wanted = .inr next) :
  bases.InLineage climb.name? wanted ↔ bases.InLineage next.name? wanted
  := by
  obtain ⟨name, come, unequal, -, rfl⟩ := of_step_eq_inr goes
  rw [come, inLineage_some_iff, or_iff_right unequal]

/-- A climb ends where the lineage does, at the type, or at a name that it has passed. -/
theorem of_step_eq_inl {answer : Bool} (ends : climb.step bases wanted = .inl answer) :
  climb.name? = none ∧ answer = false
    ∨ climb.name? = some wanted ∧ answer = true
    ∨ ∃ name, climb.name? = some name ∧ name ≠ wanted ∧ name ∈ climb.passed ∧ answer = false
  := by
  revert ends
  fun_cases Climb.step bases wanted climb with
  | case1 ended =>
      intro ends
      exact .inl ⟨ended, (Sum.inl.inj ends).symm⟩
  | case2 come =>
      intro ends
      exact .inr (.inl ⟨come, (Sum.inl.inj ends).symm⟩)
  | case3 name come unequal again =>
      intro ends
      exact .inr (.inr ⟨name, come, unequal, again, (Sum.inl.inj ends).symm⟩)
  | case4 =>
      intro ends
      contradiction

/-- The last step tells whether the type is still to come. -/
theorem Sound.answer_iff (h : climb.Sound bases wanted) {answer : Bool}
    (ends : climb.step bases wanted = .inl answer) :
  answer = true ↔ bases.InLineage climb.name? wanted
  := by
  obtain ⟨ended, rfl⟩ | ⟨come, rfl⟩ | ⟨name, come, -, again, rfl⟩ := of_step_eq_inl ends
  · simp [ended, not_inLineage_none]
  · simp [come, inLineage_some_iff]
  · have absent : ¬ bases.InLineage climb.name? wanted :=
      h.wanted_notMem ∘ h.mem_passed come again
    simp [absent]

/-! ### Runs -/

/-- The climb ends after a number of steps, with an answer. -/
inductive Ends (bases : Bases) (wanted : String) : Nat → Climb → Bool → Prop where
  | now {climb : Climb} {answer : Bool} (ends : climb.step bases wanted = .inl answer) :
      Ends bases wanted 1 climb answer
  | later {steps : Nat} {climb next : Climb} {answer : Bool}
      (goes : climb.step bases wanted = .inr next) (rest : Ends bases wanted steps next answer) :
      Ends bases wanted (steps + 1) climb answer

/-- Every climb ends, after no more steps than its bound and one. -/
theorem ends_finds (bases : Bases) (wanted : String) (climb : Climb) :
  ∃ steps ≤ climb.bound bases + 1, climb.Ends bases wanted steps (climb.finds bases wanted)
  := by
  fun_induction finds bases wanted climb with
  | case1 climb answer ends => exact ⟨1, by omega, .now ends⟩
  | case2 climb next goes ih =>
      obtain ⟨steps, bounded, rest⟩ := ih
      have less := bound_lt_of_step goes
      exact ⟨steps + 1, by omega, .later goes rest⟩

/-- A sound climb tells whether the type is in the lineage that is ahead of it. -/
theorem Sound.ends_iff (h : climb.Sound bases wanted) {steps : Nat} {answer : Bool}
    (ends : climb.Ends bases wanted steps answer) :
  answer = true ↔ bases.InLineage climb.name? wanted
  := by
  induction ends with
  | now ends => exact h.answer_iff ends
  | later goes _ ih => exact (ih (h.step goes)).trans (inLineage_step goes).symm

theorem bound_start_le (bases : Bases) (start? : Option String) :
  bound bases { name? := start? } ≤ bases.size + 1
  := by
  have listed := List.length_filter_le (· ∉ (∅ : Std.HashSet String)) bases.keys
  rw [Std.HashMap.length_keys] at listed
  exact Nat.add_le_add listed (Bool.toNat_le _)

end Climb

/-- A class has a type among its bases exactly if the type is in the lineage from its base on. -/
theorem Bases.isSubclass_iff_inLineage (bases : Bases) (c : ClassDecl) (wanted : String) :
  bases.isSubclass c wanted = true ↔ bases.InLineage c.base wanted
  := by
  obtain ⟨steps, -, ends⟩ := Climb.ends_finds bases wanted { name? := c.base }
  exact (Climb.sound_start bases wanted c.base).ends_iff ends

/-! ### Classes -/

namespace Catalog

/-- The second class is declared as the base of the first. -/
def Extends (catalog : Catalog) (c d : ClassDecl) : Prop :=
  ∃ name ∈ c.base, catalog.class? name = some d

variable {catalog : Catalog} {c d : ClassDecl} {wanted : String}

theorem base?_bases (catalog : Catalog) (name : String) :
  catalog.bases.base? name = (catalog.class? name).bind (·.base)
  := Bases.base?_ofClasses catalog.classes name

theorem inLineage_of_extends (path : ReflTransGen catalog.Extends c d)
    (base : d.base = some wanted) :
  catalog.bases.InLineage c.base wanted
  := by
  induction path using ReflTransGen.head_induction_on with
  | refl => exact ⟨wanted, base, .refl⟩
  | head first _ ih =>
      obtain ⟨name, extended, found⟩ := first
      rw [Option.mem_def.mp extended, Bases.inLineage_some_iff, base?_bases, found]
      exact .inr ih

theorem extends_of_inLineage (behind : catalog.bases.InLineage c.base wanted) :
  ∃ d, ReflTransGen catalog.Extends c d ∧ d.base = some wanted
  := by
  obtain ⟨start, extended, path⟩ := behind
  induction path using ReflTransGen.head_induction_on generalizing c with
  | refl => exact ⟨c, .refl, extended⟩
  | head first _ ih =>
      rw [base?_bases, Option.bind_eq_some_iff] at first
      obtain ⟨d, found, base⟩ := first
      obtain ⟨last, path, ends⟩ := ih base
      exact ⟨last, .head ⟨_, extended, found⟩ path, ends⟩

/-- Climbing from the base of a class ends, and a type is found exactly if it is the declared base
of the class, or of one that the class extends through any number of others. -/
theorem isSubclass_iff_extends (catalog : Catalog) (c : ClassDecl) (wanted : String) :
  (∃ steps ≤ catalog.classes.length + 2, Climb.Ends catalog.bases wanted steps
      { name? := c.base } (catalog.bases.isSubclass c wanted))
    ∧ (catalog.bases.isSubclass c wanted = true ↔
      c.base = some wanted ∨ ∃ d, TransGen catalog.Extends c d ∧ d.base = some wanted)
  := by
  constructor
  · obtain ⟨steps, bounded, ends⟩ := Climb.ends_finds catalog.bases wanted { name? := c.base }
    have start := Climb.bound_start_le catalog.bases c.base
    have size : catalog.bases.size ≤ catalog.classes.length :=
      Bases.size_ofClasses_le catalog.classes
    exact ⟨steps, by omega, ends⟩
  · rw [Bases.isSubclass_iff_inLineage]
    constructor
    · intro behind
      obtain ⟨d, path, base⟩ := extends_of_inLineage behind
      obtain rfl | path := reflTransGen_iff_eq_or_transGen.mp path
      · exact .inl base
      · exact .inr ⟨d, path, base⟩
    · rintro (base | ⟨d, path, base⟩)
      · exact inLineage_of_extends .refl base
      · exact inLineage_of_extends path.to_reflTransGen base

end Catalog

end Wiring
