import Std.Data.HashMap
import Std.Data.HashSet
import Wiring.Catalog.Basic

/-!
# Lineages

The declared base of a class, the base of that base, and so on. A lineage ends at a class without a
base or at one that is not declared, which is still a part of it; it may also lead back to a class
that it has passed. A climb along it remembers what it has passed, and goes no further from there.
-/

namespace Wiring

/-- The declared classes, each with its base if it has one. -/
abbrev Bases := Std.HashMap String (Option String)

namespace Bases

/-- The bases of some classes. Of several classes of a name the first one counts. -/
def ofClasses (classes : List ClassDecl) : Bases :=
  classes.foldr (fun c bases => bases.insert c.name c.base) ∅

/-- The declared base of the class of a name. -/
def base? (bases : Bases) (name : String) : Option String :=
  bases[name]?.join

end Bases

/-- A climb along a lineage: the names that it has passed, and the one that it has come to unless the
lineage has ended. -/
structure Climb where
  passed : Std.HashSet String := ∅
  name? : Option String

namespace Climb

/-- A step in search of a type: the answer, or the climb to the next name. -/
def step (bases : Bases) (wanted : String) (climb : Climb) : Bool ⊕ Climb :=
  match climb.name? with
  | none => .inl false
  | some name =>
    if name = wanted then .inl true
    else if name ∈ climb.passed then .inl false
    else .inr { passed := climb.passed.insert name, name? := bases.base? name }

/-- The declared names that a climb has not passed. -/
def ahead (bases : Bases) (climb : Climb) : List String :=
  bases.keys.filter (· ∉ climb.passed)

/-- A bound for the steps that go on: each of them passes a declared name, or the name at which the
lineage ends. -/
def bound (bases : Bases) (climb : Climb) : Nat :=
  (climb.ahead bases).length + climb.name?.isSome.toNat

section

variable {bases : Bases} {wanted : String} {climb next : Climb}

/-- A climb goes on from a name that is not wanted and that it has not passed. -/
theorem of_step_eq_inr (h : climb.step bases wanted = .inr next) :
  ∃ name, climb.name? = some name ∧ name ≠ wanted ∧ name ∉ climb.passed
    ∧ next = { passed := climb.passed.insert name, name? := bases.base? name }
  := by
  revert h
  fun_cases step bases wanted climb with
  | case4 name come unequal new =>
      intro h
      exact ⟨name, come, unequal, new, (Sum.inr.inj h).symm⟩
  | _ =>
      intro h
      contradiction

theorem ahead_insert (bases : Bases) (climb : Climb) (name : String) (name? : Option String) :
  ahead bases { passed := climb.passed.insert name, name? }
    = (climb.ahead bases).filter (· ≠ name)
  := by
  rw [ahead, ahead, List.filter_filter]
  congr 1
  funext other
  simp [Std.HashSet.mem_insert, Eq.comm (a := name)]

theorem mem_ahead {name base : String} (declared : bases.base? name = some base)
    (new : name ∉ climb.passed) :
  name ∈ climb.ahead bases
  := by
  have found : bases[name]? = some (some base) := Option.join_eq_some_iff.mp declared
  have known : name ∈ bases := Std.HashMap.mem_iff_isSome_getElem?.mpr (by simp [found])
  simp [ahead, known, new]

theorem bound_lt_of_step (h : climb.step bases wanted = .inr next) :
  next.bound bases < climb.bound bases
  := by
  obtain ⟨name, come, -, new, rfl⟩ := of_step_eq_inr h
  rw [bound, bound, ahead_insert, come]
  -- A name without a base need not be declared, but then the lineage ends.
  cases declared : bases.base? name with
  | none => exact Nat.lt_succ_of_le (List.length_filter_le _ _)
  | some base =>
      apply Nat.add_lt_add_right
      apply List.length_filter_lt_length_iff_exists.mpr
      exact ⟨name, mem_ahead declared new, by simp⟩

end

/-- The climb comes to the type. -/
def finds (bases : Bases) (wanted : String) (climb : Climb) : Bool :=
  match _ : climb.step bases wanted with
  | .inl answer => answer
  | .inr next => next.finds bases wanted
termination_by climb.bound bases
decreasing_by exact bound_lt_of_step ‹_›

end Climb

/-- The type is the declared base of the class, or the base of a base, and so on. -/
def Bases.isSubclass (bases : Bases) (c : ClassDecl) (wanted : String) : Bool :=
  Climb.finds bases wanted { name? := c.base }

/-- The bases of the declared classes. -/
def Catalog.bases (catalog : Catalog) : Bases :=
  .ofClasses catalog.classes

end Wiring
