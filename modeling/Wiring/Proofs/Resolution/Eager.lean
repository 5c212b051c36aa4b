import Wiring.Proofs.Resolution.Service

/-!
# Eager objects

An eager object resolves to its variable, and once it has been resolved with no step in progress it
holds one. When all eager objects hold variables, resolution emits no statement any more
(`Resolves.statements_eq`). So the statements of eager objects are emitted while these are
constructed, and never on behalf of a request.
-/

namespace Wiring

namespace Progress

variable {p q : Progress} {className : String}

/-- The class has been given a variable. -/
def Holds (className : String) (p : Progress) : Prop :=
  ∃ s, p.singleton? className = some s

theorem not_holds_iff :
  ¬ p.Holds className ↔ p.singleton? className = none
  := by
  simp [Holds, Option.eq_none_iff_forall_ne_some]

theorem Grows.holds (h : p.Grows q) (holds : p.Holds className) :
  q.Holds className
  := by
  obtain ⟨s, held⟩ := holds
  obtain ⟨t, held', -⟩ := h.singleton? held
  use t

end Progress

/-- The errand constructs an eager object of a declared class. -/
def Errand.Eager (inj : Injector) (errand : Errand) : Prop :=
  ∃ location c, errand = .construct location c ∧ inj.class? c.name = some c
    ∧ c.scope = .eagerSingleton

/-- What the errand constructs, if anything, is an eager object of a declared class. -/
def Errand.Sound (inj : Injector) (errand : Errand) : Prop :=
  ∀ location c, errand = .construct location c →
    inj.class? c.name = some c ∧ c.scope = .eagerSingleton

namespace Injector

open Progress

variable {inj : Injector} {site : Site} {task : Task} {p p' q : Progress} {es : List Expr}
  {c : ManagedClass} {location : Location}

theorem eager_of_mem_constructions {errand : Errand} (h : errand ∈ inj.constructions) :
  errand.Eager inj
  := by
  obtain ⟨⟨b, c⟩, member, rfl⟩ := List.mem_map.mp h
  use b.binding.location, c, rfl
  apply of_mem_eagerBindings member

/-- The errands of an entry point are sound. -/
theorem sound_of_mem_errands {errand : Errand} (h : errand ∈ inj.errands) :
  errand.Sound inj
  := by
  rintro location c rfl
  obtain h | h := List.mem_append.mp h
  · obtain ⟨_, _, eq, eager⟩ := eager_of_mem_constructions h
    obtain ⟨rfl, rfl⟩ := Errand.construct.inj eq
    exact eager
  · simp at h

/-- Whatever a sound errand resolves is on offer. -/
theorem offers_of_sound {errand : Errand} (sound : errand.Sound inj) :
  inj.Offers (errand.dependency inj)
  := by
  cases errand with
  | construct location c => exact (sound location c rfl).1
  | answer request => apply offers_requested

/-- With no step in progress nothing closes a cycle. -/
theorem not_closesCycle_outermost (inj : Injector) (location : Location) (c : ManagedClass) :
  inj.closesCycle ⟨location, []⟩ (.ofClass c.name) = false
  := by
  simp [closesCycle, Trail.contains]

/-- What an eager object resolves to is its variable. -/
theorem Resolves.name_of_eager (valid : p.Valid inj) (scope : c.scope = .eagerSingleton)
    (h : inj.Resolves ⟨location, []⟩ (.dependency (.object c)) p es q) :
  ∃ variableName, es = [.name variableName]
  := by
  cases h with
  | cyclicObject _ closes => simp [not_closesCycle_outermost] at closes
  | @held _ _ _ s _ _ _ _ => use s.name
  | heldLazily declared _ held lazy _ =>
      obtain ⟨d, declared', heldBy⟩ := valid.heldBy held
      obtain rfl := Option.some.inj (declared.symm.trans declared')
      cases scope.symm.trans (heldBy.lazy lazy)
  | prototype _ _ _ scope' _ => cases scope.symm.trans scope'
  | singleton _ _ _ scope' _ => cases scope.symm.trans scope'
  | eagerSingleton _ _ _ _ _ => use p.nextSingleton inj.options

/-- Once it has been resolved with no step in progress, an eager object is held. -/
theorem Resolves.holds_of_eager (scope : c.scope = .eagerSingleton)
    (h : inj.Resolves ⟨location, []⟩ (.dependency (.object c)) p es q) :
  q.Holds c.name
  := by
  cases h with
  | cyclicObject _ closes => simp [not_closesCycle_outermost] at closes
  | held _ _ held _ => apply (grows_addSubclass _ _ _).holds ⟨_, held⟩
  | heldLazily declared fresh held lazy creation =>
      apply (Resolves.heldLazily declared fresh held lazy creation).grows.holds ⟨_, held⟩
  | prototype _ _ _ scope' _ => cases scope.symm.trans scope'
  | singleton _ _ _ scope' _ => cases scope.symm.trans scope'
  | eagerSingleton _ _ unheld _ creation =>
      have unheld' : (p.addSubclass inj c).singleton? c.name = none := by simpa using unheld
      apply (creation.grows.trans (grows_emit _ _)).holds
      exact ⟨_, singleton?_takeSingleton_self unheld'⟩

/-- The eager objects hold variables once they have been served. -/
theorem Serves.holds_of_construct {errands : List Errand} (h : inj.Serves errands p q)
    (member : .construct location c ∈ errands) (scope : c.scope = .eagerSingleton) :
  q.Holds c.name
  := by
  induction h with
  | nil => cases member
  | cons first rest ih =>
      obtain rfl | member := List.mem_cons.mp member
      · apply rest.grows.holds
        apply first.holds_of_eager scope
      · apply ih member

/-- Every eager object has been constructed or is under construction. -/
def Started (inj : Injector) (p : Progress) : Prop :=
  ∀ c, inj.class? c.name = some c → c.scope = .eagerSingleton →
    ∃ s, p.singleton? c.name = some s

theorem Started.of_grows (h : inj.Started p) (grows : p.Grows q) :
  inj.Started q
  := by
  intro c declared scope
  apply grows.holds (h c declared scope)

/-- Only eager objects that nothing has used before are constructed in statements. -/
theorem Resolves.statements_eq (h : inj.Resolves site task p es p') (started : inj.Started p) :
  p'.statements = p.statements
  := by
  induction h with
  | held _ _ _ _ => simp
  | heldLazily _ _ _ _ _ ih => simpa using ih (started.of_grows (grows_addSubclass _ _ _))
  | prototype _ _ _ _ _ ih => simpa using ih (started.of_grows (grows_addSubclass _ _ _))
  | @singleton _ c p _ _ _ _ _ _ _ ih =>
      have started := started.of_grows (grows_addSubclass inj c p)
      simpa using ih (started.of_grows (grows_takeSingleton _ _ _ _))
  | eagerSingleton declared _ unheld scope _ _ =>
      obtain ⟨s, held⟩ := started _ declared scope
      cases unheld.symm.trans held
  | provided _ ih => apply ih started
  | providerFunction _ ih => apply ih (started.of_grows (grows_defer _))
  | call _ _ _ _ ih => apply ih started
  | creation _ _ _ ih => apply ih started
  | creationWithSetters _ _ parameters _ ih₁ ih₂ =>
      have started₁ := started.of_grows parameters.grows
      rw [ih₂ (started₁.of_grows (grows_hold _ _ _)), statements_hold, ih₁ started]
  | parameter first _ ih₁ ih₂ => rw [ih₂ (started.of_grows first.grows), ih₁ started]
  | setter first _ ih₁ ih₂ => rw [ih₂ (started.of_grows first.grows), ih₁ started]
  | _ => rfl

end Injector

end Wiring
