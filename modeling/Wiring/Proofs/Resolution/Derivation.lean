import Wiring.Resolution.Basic

/-!
# Derivations of resolution

`inj.Resolves site task p es p'` says that resolving `task` at `site`, when resolution has come to
`p`, gives the expressions `es` and takes resolution to `p'`. It has one rule for each way that a
step of resolution can go and no bound on the depth, so a derivation is a resolution that ends.
Whatever holds of all resolution is proved by induction on derivations.

A task is resolved in one way only (`Resolves.deterministic`).
-/

namespace Wiring

/-- What is resolved at a site. -/
inductive Task where
  /-- What a name leads to. -/
  | dependency (d : Dependency)
  /-- Parameters, one after the other. -/
  | parameters (names : List String)
  /-- The call of a provider. -/
  | call (b : OwnedBinding) (params : List String)
  /-- The construction of an object, assigned to a variable if one is given. -/
  | creation (c : ManagedClass) (target : Option String)
  /-- The calls of setters on the object that a variable holds. -/
  | setters (c : ManagedClass) (target : String) (names : List String)

/-- An expression, assigned to a variable if one is given. -/
def Expr.assignedTo (target : Option String) (value : Expr) : Expr :=
  match target with
  | some target => .assign target value
  | none => value

namespace Progress

/-- The variable that an object with setters is held in: the one given, or else a temporary. -/
def holder (options : Options) (target : Option String) (p : Progress) : String :=
  target.getD (p.nextTemporary options)

/-- Takes a temporary unless a variable is given. -/
def hold (options : Options) (target : Option String) (p : Progress) : Progress :=
  match target with
  | some _ => p
  | none => p.takeTemporary options

end Progress

namespace Injector

/-- The dependency is one that the injector can lead to: the value is bound, the class is the
declared one of its name, and the provider is the one bound under its key. -/
def Offers (inj : Injector) : Dependency → Prop
  | .value e => ∃ b ∈ inj.bindings, b.binding.source = .value e
  | .absent _ => True
  | .object c => inj.class? c.name = some c
  | .provided b params => inj.binding? b.binding.key = some b ∧ b.binding.source = .provider params
  | .providerFunction b params =>
    inj.binding? b.binding.key = some b ∧ b.binding.source = .provider params

/-- Resolving the task at the site takes resolution from the first progress to the second one and
gives the expressions. -/
inductive Resolves (inj : Injector) : Site → Task → Progress → List Expr → Progress → Prop where
  | value {site e p}
    (bound : ∃ b ∈ inj.bindings, b.binding.source = .value e) :
    Resolves inj site (.dependency (.value e)) p [e] p
  | absent {site problem p} :
    Resolves inj site (.dependency (.absent problem)) p [.null] (p.report problem site.location)
  | cyclicObject {site c p}
    (declared : inj.class? c.name = some c)
    (closes : inj.closesCycle site (.ofClass c.name) = true) :
    Resolves inj site (.dependency (.object c)) p [.null]
      (p.report (.cyclicBinding (site.trail.cycleText (.ofClass c.name))) site.location)
  | held {site c p s}
    (declared : inj.class? c.name = some c)
    (fresh : inj.closesCycle site (.ofClass c.name) = false)
    (held : p.singleton? c.name = some s) (settled : s.lazy = false) :
    Resolves inj site (.dependency (.object c)) p [.name s.name] (p.addSubclass inj c)
  | heldLazily {site c p s e p'}
    (declared : inj.class? c.name = some c)
    (fresh : inj.closesCycle site (.ofClass c.name) = false)
    (held : p.singleton? c.name = some s) (lazy : s.lazy = true)
    (creation : Resolves inj site (.creation c (some s.name)) (p.addSubclass inj c) [e] p') :
    Resolves inj site (.dependency (.object c)) p [.once s.name e]
      (p'.setLazy c.name p'.isDeferred)
  | prototype {site c p e p'}
    (declared : inj.class? c.name = some c)
    (fresh : inj.closesCycle site (.ofClass c.name) = false)
    (unheld : p.singleton? c.name = none) (scope : c.scope = .prototype)
    (creation : Resolves inj site (.creation c none) (p.addSubclass inj c) [e] p') :
    Resolves inj site (.dependency (.object c)) p [e] p'
  | singleton {site c p e p'}
    (declared : inj.class? c.name = some c)
    (fresh : inj.closesCycle site (.ofClass c.name) = false)
    (unheld : p.singleton? c.name = none) (scope : c.scope = .singleton)
    (creation : Resolves inj site (.creation c (some (p.nextSingleton inj.options)))
      ((p.addSubclass inj c).takeSingleton inj.options c.name p.isDeferred) [e] p') :
    Resolves inj site (.dependency (.object c)) p [.once (p.nextSingleton inj.options) e] p'
  | eagerSingleton {site c p e p'}
    (declared : inj.class? c.name = some c)
    (fresh : inj.closesCycle site (.ofClass c.name) = false)
    (unheld : p.singleton? c.name = none) (scope : c.scope = .eagerSingleton)
    (creation : Resolves inj site (.creation c (some (p.nextSingleton inj.options)))
      ((p.addSubclass inj c).takeSingleton inj.options c.name false) [e] p') :
    Resolves inj site (.dependency (.object c)) p [.name (p.nextSingleton inj.options)]
      (p'.emit (.construct c.name (p.nextSingleton inj.options) e))
  | provided {site b params p e p'}
    (call : Resolves inj site (.call b params) p [e] p') :
    Resolves inj site (.dependency (.provided b params)) p [e] p'
  | providerFunction {site b params p e p'}
    (call : Resolves inj site (.call b params) p.defer [e] p') :
    Resolves inj site (.dependency (.providerFunction b params)) p [.delayed e] p'.resume
  | cyclicCall {site b params p}
    (bound : inj.binding? b.binding.key = some b) (source : b.binding.source = .provider params)
    (closes : inj.closesCycle site (.ofProvider b.binding.key) = true) :
    Resolves inj site (.call b params) p [.null]
      (p.report (.cyclicBinding (site.trail.cycleText (.ofProvider b.binding.key))) site.location)
  | call {site b params p args p'}
    (bound : inj.binding? b.binding.key = some b) (source : b.binding.source = .provider params)
    (fresh : inj.closesCycle site (.ofProvider b.binding.key) = false)
    (parameters : Resolves inj (site.enter (.ofProvider b.binding.key)) (.parameters params) p
      args p') :
    Resolves inj site (.call b params) p [.call (.member (.name b.handle) b.binding.key) args] p'
  | creation {site c target p args p'}
    (declared : inj.class? c.name = some c) (plain : c.decl.setters = [])
    (parameters : Resolves inj (site.enter (.ofClass c.name)) (.parameters c.decl.params) p
      args p') :
    Resolves inj site (.creation c target) p
      [.assignedTo target (.new (inj.constructedName c) args)] p'
  | creationWithSetters {site c target p args p₁ calls p'}
    (declared : inj.class? c.name = some c) (plain : c.decl.setters ≠ [])
    (parameters : Resolves inj (site.enter (.ofClass c.name)) (.parameters c.decl.params) p
      args p₁)
    (setters : Resolves inj (site.enter (.ofClass c.name))
      (.setters c (p₁.holder inj.options target) c.decl.setters) (p₁.hold inj.options target)
      calls p') :
    Resolves inj site (.creation c target) p
      [.sequence (.assign (p₁.holder inj.options target) (.new (inj.constructedName c) args) ::
        calls ++ [.name (p₁.holder inj.options target)])] p'
  | noParameters {site p} :
    Resolves inj site (.parameters []) p [] p
  | parameter {site name names p e p₁ es p'}
    (first : Resolves inj site (.dependency (inj.parameter name)) p [e] p₁)
    (rest : Resolves inj site (.parameters names) p₁ es p') :
    Resolves inj site (.parameters (name :: names)) p (e :: es) p'
  | noSetters {site c target p} :
    Resolves inj site (.setters c target []) p [] p
  | setter {site c target name names p args p₁ calls p'}
    (first : Resolves inj site (.parameters (c.decl.methodParams name)) p args p₁)
    (rest : Resolves inj site (.setters c target names) p₁ calls p') :
    Resolves inj site (.setters c target (name :: names)) p
      (.call (.member (.name target) name) args :: calls) p'

/-- A task is resolved in one way only. -/
theorem Resolves.deterministic {inj : Injector} {site : Site} {task : Task} {p p₁ p₂ : Progress}
    {es₁ es₂ : List Expr} (h₁ : inj.Resolves site task p es₁ p₁)
    (h₂ : inj.Resolves site task p es₂ p₂) :
  es₁ = es₂ ∧ p₁ = p₂
  := by
  induction h₁ generalizing es₂ p₂ with
  | value _ =>
      cases h₂
      exact ⟨rfl, rfl⟩
  | absent =>
      cases h₂
      exact ⟨rfl, rfl⟩
  | cyclicObject _ _ => cases h₂ <;> simp_all
  | held _ _ _ _ => cases h₂ <;> simp_all
  | heldLazily _ _ held _ _ ih =>
      cases h₂ with
      | heldLazily _ _ held' _ creation =>
          obtain rfl := Option.some.inj (held.symm.trans held')
          obtain ⟨h, rfl⟩ := ih creation
          simp_all
      | _ => simp_all
  | prototype _ _ _ _ _ ih =>
      cases h₂ with
      | prototype _ _ _ _ creation => exact ih creation
      | _ => simp_all
  | singleton _ _ _ _ _ ih =>
      cases h₂ with
      | singleton _ _ _ _ creation =>
          obtain ⟨h, rfl⟩ := ih creation
          simp_all
      | _ => simp_all
  | eagerSingleton _ _ _ _ _ ih =>
      cases h₂ with
      | eagerSingleton _ _ _ _ creation =>
          obtain ⟨h, rfl⟩ := ih creation
          simp_all
      | _ => simp_all
  | provided _ ih =>
      cases h₂ with
      | provided call => exact ih call
  | providerFunction _ ih =>
      cases h₂ with
      | providerFunction call =>
          obtain ⟨h, rfl⟩ := ih call
          simp_all
  | cyclicCall _ _ _ => cases h₂ <;> simp_all
  | call _ _ fresh _ ih =>
      cases h₂ with
      | cyclicCall _ _ closes => simp_all
      | call _ _ _ parameters =>
          obtain ⟨rfl, rfl⟩ := ih parameters
          exact ⟨rfl, rfl⟩
  | creation _ plain _ ih =>
      cases h₂ with
      | creation _ _ parameters =>
          obtain ⟨rfl, rfl⟩ := ih parameters
          exact ⟨rfl, rfl⟩
      | creationWithSetters _ plain' _ _ => exact absurd plain plain'
  | creationWithSetters _ plain _ _ ih₁ ih₂ =>
      cases h₂ with
      | creation _ plain' _ => exact absurd plain' plain
      | creationWithSetters _ _ parameters setters =>
          obtain ⟨rfl, rfl⟩ := ih₁ parameters
          obtain ⟨rfl, rfl⟩ := ih₂ setters
          exact ⟨rfl, rfl⟩
  | noParameters =>
      cases h₂
      exact ⟨rfl, rfl⟩
  | parameter _ _ ih₁ ih₂ =>
      cases h₂ with
      | parameter first rest =>
          obtain ⟨h, rfl⟩ := ih₁ first
          obtain ⟨rfl, rfl⟩ := ih₂ rest
          simp_all
  | noSetters =>
      cases h₂
      exact ⟨rfl, rfl⟩
  | setter _ _ ih₁ ih₂ =>
      cases h₂ with
      | setter first rest =>
          obtain ⟨rfl, rfl⟩ := ih₁ first
          obtain ⟨rfl, rfl⟩ := ih₂ rest
          exact ⟨rfl, rfl⟩

/-! ### What the injector offers -/

/-- The class that a name leads to bears that name. -/
theorem name_of_class? {inj : Injector} {name : String} {c : ManagedClass}
    (h : inj.class? name = some c) :
  c.name = name
  := by
  simpa using List.find?_some h

/-- The binding that a key leads to bears that key. -/
theorem key_of_binding? {inj : Injector} {key : String} {b : OwnedBinding}
    (h : inj.binding? key = some b) :
  b.binding.key = key
  := by
  simpa using List.find?_some h

theorem offers_objectOf (inj : Injector) (className : String) :
  inj.Offers (inj.objectOf className)
  := by
  unfold objectOf
  split
  · next c h =>
      rw [Offers, name_of_class? h]
      apply h
  · trivial

theorem offers_bound {inj : Injector} {key : String} {b : OwnedBinding}
    (h : inj.binding? key = some b) :
  inj.Offers (inj.bound b)
  := by
  unfold bound
  split
  · apply offers_objectOf
  · next e source => exact ⟨b, List.mem_of_find?_eq_some h, source⟩
  · next params source =>
      rw [← key_of_binding? h] at h
      exact ⟨h, source⟩

theorem offers_providerOf (inj : Injector) (key : String) :
  inj.Offers (inj.providerOf key)
  := by
  unfold providerOf
  split
  · trivial
  · next b h =>
      split
      · next params source =>
          rw [← key_of_binding? h] at h
          exact ⟨h, source⟩
      · trivial

/-- Whatever a parameter leads to is on offer. -/
theorem offers_parameter (inj : Injector) (name : String) :
  inj.Offers (inj.parameter name)
  := by
  unfold parameter
  split
  · next b h => apply offers_bound h
  · split
    · trivial
    · apply offers_providerOf

/-- Whatever a request asks for is on offer. -/
theorem offers_requested (inj : Injector) (wanted : Wanted) :
  inj.Offers (inj.requested wanted)
  := by
  unfold requested
  split
  · apply offers_objectOf
  · split
    · next b h => apply offers_bound h
    · trivial

end Injector

end Wiring
