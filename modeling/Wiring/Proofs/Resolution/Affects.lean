import Wiring.Proofs.Resolution.Cycles
import Wiring.Proofs.Resolution.Effect

/-!
# How the rules of resolution affect a variable

Every derivation has an effect on the variable of a class (`Resolves.affects`), where the class and
the variable are those that belong together once resolution is over (`Progress.Owns`) and nothing
else goes by the name of the variable (`Injector.Apart`).

The construction of an object for the variable itself is the only task whose expression assigns it,
and the calls of setters on that object are the only ones that read it without more ado. For these
tasks the effect accounts for what is below them alone, and the rules for classes add the rest.
-/

namespace Wiring

open Relation

/-- The variable that the object of the task is held in, if one is given. -/
def Task.target? : Task → Option String
  | .creation _ target => target
  | .setters _ target _ => some target
  | _ => none

/-- If the task is the construction of an object for a variable, then the variable and the class of
the object are either both the given ones or neither is. -/
def Task.Paired (className v : String) : Task → Prop
  | .creation c (some target) => target = v ↔ c.name = className
  | _ => True

/-- The class holds the variable, if it holds any, and no other class does. -/
def Progress.Owns (p : Progress) (className v : String) : Prop :=
  ∀ other s, p.singleton? other = some s → (s.name = v ↔ other = className)

/-- Nothing but the resolution of classes has to do with the variable. -/
structure Injector.Apart (inj : Injector) (v : String) : Prop where
  handles : ∀ b ∈ inj.bindings, b.handle ≠ v
  values : ∀ b ∈ inj.bindings, ∀ e, b.binding.source = .value e → e.accesses v = []
  temporaries : ∀ n : Nat, inj.options.instancePrefix ++ toString n ≠ v

theorem Progress.Owns.of_grows {p q : Progress} {className v : String} (h : q.Owns className v)
    (grows : p.Grows q) :
  p.Owns className v
  := by
  intro other s held
  obtain ⟨t, held', name⟩ := grows.singleton? held
  rw [← name]
  apply h other t held'

/-- No two classes hold one variable, so each variable belongs to the class that holds it. -/
theorem Progress.Valid.owns {inj : Injector} {p : Progress} (h : p.Valid inj)
    {s : SingletonVariable} (hs : s ∈ p.singletons) :
  p.Owns s.className s.name
  := by
  intro other t held
  have own := h.singleton?_of_mem hs
  constructor
  · apply h.eq_of_name_eq held own
  · rintro rfl
    rw [Option.some.inj (held.symm.trans own)]

namespace Injector

open Progress

variable {inj : Injector} {site : Site} {task : Task} {p p' : Progress} {es : List Expr}
  {className v : String}

/-- The resolution of the task has an effect on the variable, with the accesses of its expressions
unless the task is about the variable itself. -/
def Affects (inj : Injector) (className v : String) (site : Site) (task : Task) (p : Progress)
    (es : List Expr) (p' : Progress) : Prop :=
  ∃ accesses, inj.Effect className v (task.entered ++ site.trail) p accesses p'
    ∧ (task.target? ≠ some v → accesses = Expr.accessesAll v es)
    ∧ ∀ c, task = .creation c (some v) → ∃ rest, Expr.accessesAll v es = .write :: rest

theorem affects_dependency {d : Dependency}
    (h : inj.Effect className v site.trail p (Expr.accessesAll v es) p') :
  inj.Affects className v site (.dependency d) p es p'
  := by
  use Expr.accessesAll v es, h
  simp

variable {c : ManagedClass} {s : SingletonVariable} {e : Expr}

/-! ### Classes -/

theorem effect_held (cycles : inj.options.detectCycles = true)
    (fresh : inj.closesCycle site (.ofClass c.name) = false)
    (held : p.singleton? c.name = some s) (settled : s.lazy = false) (owns : p.Owns className v) :
  inj.Effect className v site.trail p (Expr.accessesAll v [.name s.name]) (p.addSubclass inj c)
  := by
  rw [Expr.accessesAll_singleton]
  by_cases eq : c.name = className
  · obtain rfl := eq
    have outside := not_mem_of_fresh cycles fresh
    rw [(owns _ s held).mpr rfl, Expr.accesses_name_self]
    apply (Effect.useSettled ⟨s, held, settled⟩ outside).of_right_eq <;> simp
  · rw [Expr.accesses_name_of_ne (fun name => eq ((owns _ s held).mp name))]
    apply (Effect.refl ..).of_right_eq <;> simp

/-- The construction of another class for its variable, seen from outside. -/
theorem effect_other {target : Option String} (ne : className ≠ c.name) (other : target ≠ some v)
    (h : inj.Affects className v site (.creation c target) p [e] p') :
  inj.Effect className v site.trail p (e.accesses v) p'
  := by
  obtain ⟨accesses, effect, eq, -⟩ := h
  rw [eq other, Expr.accessesAll_singleton] at effect
  apply effect.leave
  simp [ne]

theorem effect_heldLazily (cycles : inj.options.detectCycles = true)
    (fresh : inj.closesCycle site (.ofClass c.name) = false)
    (held : p.singleton? c.name = some s) (lazy : s.lazy = true) (owns : p.Owns className v)
    (creation : inj.Resolves site (.creation c (some s.name)) (p.addSubclass inj c) [e] p')
    (h : inj.Affects className v site (.creation c (some s.name)) (p.addSubclass inj c) [e] p') :
  inj.Effect className v site.trail p (Expr.accessesAll v [.once s.name e])
    (p'.setLazy c.name p'.isDeferred)
  := by
  rw [Expr.accessesAll_singleton, Expr.accesses_once]
  by_cases eq : c.name = className
  · obtain rfl := eq
    have name : s.name = v := (owns _ s held).mpr rfl
    have unsettled : ¬ p.Settled c.name := by
      simp [Settled, held, lazy]
    have frame : p'.singleton? c.name = some s := by
      rw [creation.singleton?_eq cycles (by simp [Task.entered]), singleton?_addSubclass, held]
    obtain ⟨accesses, effect, -, writes⟩ := h
    obtain ⟨rest, writes⟩ := writes c (by rw [name])
    rw [Expr.accessesAll_singleton] at writes
    apply effect.assign (by simp) (by simp) (statements_setLazy _ _ _) (deferred_setLazy _ _ _)
      unsettled (not_mem_of_fresh cycles fresh) writes
    · -- it is settled only outside of functions
      rintro ⟨t, held', settled⟩
      rw [singleton?_setLazy, frame, Option.map_some,
        if_pos (className_of_singleton? held)] at held'
      obtain rfl := Option.some.inj held'
      simpa [isDeferred, creation.deferred_eq] using settled
    · simp [Settled, frame, lazy]
  · have ne : className ≠ c.name := fun h => eq h.symm
    have other : some s.name ≠ some v := by
      intro h
      apply eq ((owns _ s held).mp (Option.some.inj h))
    have same' : p'.Settled className ↔ (p'.setLazy c.name p'.isDeferred).Settled className :=
      settled_iff_of_eq (singleton?_setLazy_of_ne ne).symm
    apply ((effect_other ne other h).of_left_eq settled_addSubclass _ _).of_right_eq same' <;> simp

theorem effect_prototype (cycles : inj.options.detectCycles = true)
    (unheld : p.singleton? c.name = none)
    (creation : inj.Resolves site (.creation c none) (p.addSubclass inj c) [e] p')
    (h : inj.Affects className v site (.creation c none) (p.addSubclass inj c) [e] p') :
  inj.Effect className v site.trail p (e.accesses v) p'
  := by
  have frame : p'.singleton? c.name = none := by
    rw [creation.singleton?_eq cycles (by simp [Task.entered]), singleton?_addSubclass, unheld]
  obtain ⟨accesses, effect, eq, -⟩ := h
  rw [eq (by simp [Task.target?]), Expr.accessesAll_singleton] at effect
  apply (effect.leave _).of_left_eq settled_addSubclass (by simp) (by simp)
  -- nothing has settled a variable of the class itself
  rintro settled eq
  obtain rfl := Step.ofClass.inj eq
  simp [Settled, frame] at settled

/-- The variable that a class takes is its own. -/
theorem owns_takeSingleton {lazy : Bool} (unheld : p.singleton? c.name = none)
    (creation : inj.Resolves site task
      ((p.addSubclass inj c).takeSingleton inj.options c.name lazy) es p')
    (owns : p'.Owns className v) :
  p.nextSingleton inj.options = v ↔ c.name = className
  := by
  apply owns.of_grows creation.grows _ _ (singleton?_takeSingleton_addSubclass unheld)

/-- While its object is constructed, the variable that a class has taken stays as it is. -/
theorem singleton?_of_taken (cycles : inj.options.detectCycles = true) {lazy : Bool}
    {target : Option String} (unheld : p.singleton? c.name = none)
    (creation : inj.Resolves site (.creation c target)
      ((p.addSubclass inj c).takeSingleton inj.options c.name lazy) es p') :
  p'.singleton? c.name
    = some ⟨c.name, (p.addSubclass inj c).nextSingleton inj.options, lazy⟩
  := by
  rw [creation.singleton?_eq cycles (by simp [Task.entered])]
  apply singleton?_takeSingleton_self
  rw [singleton?_addSubclass, unheld]

theorem effect_singleton (cycles : inj.options.detectCycles = true)
    (fresh : inj.closesCycle site (.ofClass c.name) = false)
    (unheld : p.singleton? c.name = none) (owns : p'.Owns className v)
    (creation : inj.Resolves site (.creation c (some (p.nextSingleton inj.options)))
      ((p.addSubclass inj c).takeSingleton inj.options c.name p.isDeferred) [e] p')
    (h : inj.Affects className v site (.creation c (some (p.nextSingleton inj.options)))
      ((p.addSubclass inj c).takeSingleton inj.options c.name p.isDeferred) [e] p') :
  inj.Effect className v site.trail p
    (Expr.accessesAll v [.once (p.nextSingleton inj.options) e]) p'
  := by
  have own := owns_takeSingleton unheld creation owns
  have frame := singleton?_of_taken cycles unheld creation
  rw [Expr.accessesAll_singleton, Expr.accesses_once]
  by_cases eq : c.name = className
  · obtain rfl := eq
    obtain ⟨accesses, effect, -, writes⟩ := h
    obtain ⟨rest, writes⟩ := writes c (by rw [own.mpr rfl])
    rw [Expr.accessesAll_singleton] at writes
    apply effect.assign (by simp) (by simp) rfl rfl (by simp [Settled, unheld])
      (not_mem_of_fresh cycles fresh) writes
    · -- it is settled only outside of functions
      simp [Settled, frame, isDeferred]
    · exact id
  · have ne : className ≠ c.name := fun h => eq h.symm
    have other : some (p.nextSingleton inj.options) ≠ some v :=
      fun h => eq (own.mp (Option.some.inj h))
    apply (effect_other ne other h).of_left_eq _ (by simp) (by simp)
    rw [settled_takeSingleton_of_ne ne, settled_addSubclass]

theorem effect_eagerSingleton (cycles : inj.options.detectCycles = true)
    (declared : inj.class? c.name = some c)
    (fresh : inj.closesCycle site (.ofClass c.name) = false)
    (unheld : p.singleton? c.name = none) (scope : c.scope = .eagerSingleton)
    (owns : p'.Owns className v) (walks : Trail.Walks inj (.ofClass c.name :: site.trail))
    (creation : inj.Resolves site (.creation c (some (p.nextSingleton inj.options)))
      ((p.addSubclass inj c).takeSingleton inj.options c.name false) [e] p')
    (h : inj.Affects className v site (.creation c (some (p.nextSingleton inj.options)))
      ((p.addSubclass inj c).takeSingleton inj.options c.name false) [e] p') :
  inj.Effect className v site.trail p
    (Expr.accessesAll v [.name (p.nextSingleton inj.options)])
    (p'.emit (.construct c.name (p.nextSingleton inj.options) e))
  := by
  have own := owns_takeSingleton unheld creation owns
  have frame := singleton?_of_taken cycles unheld creation
  have eager : inj.IsEager c.name := ⟨c, declared, scope⟩
  rw [Expr.accessesAll_singleton]
  by_cases eq : c.name = className
  · obtain rfl := eq
    obtain ⟨accesses, effect, -, writes⟩ := h
    obtain ⟨rest, writes⟩ := writes c (by rw [own.mpr rfl])
    rw [Expr.accessesAll_singleton] at writes
    rw [own.mpr rfl, Expr.accesses_name_self]
    apply effect.constructSelf (by simp) (by simp) (by simp [Settled, unheld])
      (not_mem_of_fresh cycles fresh) writes (by simp [Settled, frame]) eager
  · have ne : className ≠ c.name := fun h => eq h.symm
    have other : some (p.nextSingleton inj.options) ≠ some v :=
      fun h => eq (own.mp (Option.some.inj h))
    rw [Expr.accesses_name_of_ne (fun h => eq (own.mp h))]
    obtain ⟨accesses, effect, eq', -⟩ := h
    rw [eq' other, Expr.accessesAll_singleton] at effect
    apply (effect.construct ne eager walks.transGen).of_left_eq _ (by simp) (by simp)
    rw [settled_takeSingleton_of_ne ne, settled_addSubclass]

/-! ### Constructions -/

variable {target : Option String} {args calls : List Expr} {p₁ : Progress}

/-- The arguments of the construction of the class itself do not access its variable. -/
theorem accessesAll_eq_nil
    (args_effect : inj.Effect className v (.ofClass c.name :: site.trail) p
      (Expr.accessesAll v args) p') (eq : c.name = className) :
  Expr.accessesAll v args = []
  := by
  apply (args_effect.inside _).1
  simp [eq]

theorem affects_creation (paired : (Task.creation c target).Paired className v)
    (h : inj.Affects className v (site.enter (.ofClass c.name)) (.parameters c.decl.params) p
      args p') :
  inj.Affects className v site (.creation c target) p
    [.assignedTo target (.new (inj.constructedName c) args)] p'
  := by
  obtain ⟨accesses, effect, eq, -⟩ := h
  obtain rfl := eq (by simp [Task.target?])
  use Expr.accessesAll v args, effect
  constructor
  · intro (other : target ≠ some v)
    rw [Expr.accessesAll_singleton, Expr.accesses_assignedTo other]
  · rintro d creation
    obtain ⟨rfl, rfl⟩ := Task.creation.inj creation
    have nothing := accessesAll_eq_nil effect (paired.mp rfl)
    use []
    simp [Expr.assignedTo, Expr.accesses, nothing]

/-- The variable that an object with setters is held in is that of its class or a temporary. -/
theorem holder_ne (apart : inj.Apart v) (other : target ≠ some v) (p : Progress) :
  p.holder inj.options target ≠ v
  := by
  cases target with
  | none => apply apart.temporaries
  | some target =>
      rintro rfl
      apply other rfl

theorem affects_creationWithSetters (apart : inj.Apart v)
    (paired : (Task.creation c target).Paired className v)
    (h₁ : inj.Affects className v (site.enter (.ofClass c.name)) (.parameters c.decl.params) p
      args p₁)
    (h₂ : inj.Affects className v (site.enter (.ofClass c.name))
      (.setters c (p₁.holder inj.options target) c.decl.setters) (p₁.hold inj.options target)
      calls p') :
  inj.Affects className v site (.creation c target) p
    [.sequence (.assign (p₁.holder inj.options target) (.new (inj.constructedName c) args) ::
      calls ++ [.name (p₁.holder inj.options target)])] p'
  := by
  obtain ⟨xs, effect₁, eq₁, -⟩ := h₁
  obtain ⟨ys, effect₂, eq₂, -⟩ := h₂
  obtain rfl := eq₁ (by simp [Task.target?])
  have same : (p₁.hold inj.options target).Settled className ↔ p₁.Settled className :=
    settled_iff_of_eq (by simp)
  use Expr.accessesAll v args ++ ys
  refine ⟨effect₁.trans (effect₂.of_left_eq same (by simp) (by simp)), ?_, ?_⟩
  · intro (other : target ≠ some v)
    have ne := holder_ne apart other p₁
    rw [eq₂ (by simpa [Task.target?] using ne)]
    simp [Expr.accesses, ne]
  · rintro d creation
    obtain ⟨rfl, rfl⟩ := Task.creation.inj creation
    have nothing := accessesAll_eq_nil effect₁ (paired.mp rfl)
    use Expr.accessesAll v calls ++ [.read]
    simp [holder, Expr.accesses, nothing]

/-! ### All of resolution -/

/-- What resolution does to the variable, rule by rule. -/
theorem Resolves.affects (cycles : inj.options.detectCycles = true) (apart : inj.Apart v)
    (h : inj.Resolves site task p es p') (owns : p'.Owns className v)
    (paired : task.Paired className v)
    (walks : ∀ step, task.Starts inj step → Trail.Walks inj (step :: site.trail)) :
  inj.Affects className v site task p es p'
  := by
  induction h with
  | value bound =>
      obtain ⟨b, member, source⟩ := bound
      use [], Effect.refl ..
      simp [apart.values b member _ source]
  | absent =>
      use [], (Effect.refl ..).of_right_eq Iff.rfl rfl rfl
      simp
  | cyclicObject _ _ =>
      use [], (Effect.refl ..).of_right_eq Iff.rfl rfl rfl
      simp
  | held _ fresh held' settled =>
      apply affects_dependency
      apply effect_held cycles fresh held' settled (owns.of_grows (grows_addSubclass _ _ _))
  | @heldLazily _ c p s _ p' _ fresh held' lazy creation ih =>
      have owns' : p'.Owns className v := owns.of_grows (grows_setLazy _ _ _)
      have owns₀ : p.Owns className v :=
        owns'.of_grows ((grows_addSubclass _ _ _).trans creation.grows)
      apply affects_dependency
      apply effect_heldLazily cycles fresh held' lazy owns₀ creation
      apply ih owns' (owns₀ _ s held') walks
  | prototype _ _ unheld _ creation ih =>
      apply affects_dependency
      rw [Expr.accessesAll_singleton]
      apply effect_prototype cycles unheld creation (ih owns trivial walks)
  | singleton _ fresh unheld _ creation ih =>
      apply affects_dependency
      apply effect_singleton cycles fresh unheld owns creation
      apply ih owns (owns_takeSingleton unheld creation owns) walks
  | eagerSingleton declared fresh unheld scope creation ih =>
      have owns' := owns.of_grows (grows_emit _ _)
      apply affects_dependency
      apply effect_eagerSingleton cycles declared fresh unheld scope owns' (walks _ rfl) creation
      apply ih owns' (owns_takeSingleton unheld creation owns') walks
  | provided _ ih =>
      obtain ⟨accesses, effect, eq, -⟩ := ih owns trivial walks
      use accesses, effect, eq
      simp
  | providerFunction _ ih =>
      obtain ⟨accesses, effect, -⟩ := ih owns trivial walks
      use [], effect.delay
      simp
  | cyclicCall _ _ _ =>
      use [], (Effect.refl ..).of_right_eq Iff.rfl rfl rfl
      simp
  | call bound source _ _ ih =>
      obtain ⟨accesses, effect, eq, -⟩ := ih owns trivial fun step starts =>
        (walks _ rfl).extend (edge_of_provider bound source starts)
      use accesses, effect.leave (by simp)
      rw [eq (by simp [Task.target?]), Expr.accessesAll_singleton,
        Expr.accesses_callMember (apart.handles _ (List.mem_of_find?_eq_some bound))]
      simp
  | creation declared _ _ ih =>
      apply affects_creation paired
      apply ih owns trivial
      intro step starts
      apply (walks _ rfl).extend (edge_of_parameters declared starts)
  | creationWithSetters declared _ _ setters ih₁ ih₂ =>
      apply affects_creationWithSetters apart paired
      · apply ih₁ (owns.of_grows ((grows_hold _ _ _).trans setters.grows)) trivial
        intro step starts
        apply (walks _ rfl).extend (edge_of_parameters declared starts)
      · apply ih₂ owns trivial
        intro step starts
        apply (walks _ rfl).extend (edge_of_setters declared starts)
  | noParameters =>
      use [], Effect.refl ..
      simp
  | parameter _ rest ih₁ ih₂ =>
      obtain ⟨walks₁, walks₂⟩ := forall_starts_parameters_cons.mp walks
      obtain ⟨xs, effect₁, eq₁, -⟩ := ih₁ (owns.of_grows rest.grows) trivial walks₁
      obtain ⟨ys, effect₂, eq₂, -⟩ := ih₂ owns trivial walks₂
      use xs ++ ys, effect₁.trans effect₂
      simp [eq₁ (by simp [Task.target?]), eq₂ (by simp [Task.target?])]
  | noSetters =>
      use [], Effect.refl ..
      simp
  | setter _ rest ih₁ ih₂ =>
      obtain ⟨walks₁, walks₂⟩ := forall_starts_setters_cons.mp walks
      obtain ⟨xs, effect₁, eq₁, -⟩ := ih₁ (owns.of_grows rest.grows) trivial walks₁
      obtain ⟨ys, effect₂, eq₂, -⟩ := ih₂ owns trivial walks₂
      use xs ++ ys, effect₁.trans effect₂
      constructor
      · intro other
        rw [eq₁ (by simp [Task.target?]), eq₂ other, Expr.accessesAll_cons,
          Expr.accesses_callMember (fun eq => other (by rw [Task.target?, eq]))]
      · simp

end Injector

end Wiring
