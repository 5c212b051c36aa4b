import Wiring.Injector.Selection
import Wiring.Proofs.Injector.Flattening
import Wiring.Proofs.Resolution.Derivation
import Mathlib.Tactic.Common

/-!
# Resolution ends

Where cycles are looked for, nothing is resolved for a construction or for a call of a provider
unless its step is not in progress yet. So the steps in progress are distinct, they are declared
classes and bound providers, and constructions and calls never nest deeper than there are of these,
but for one more call inside, which is refused. In particular resolution to the depth of the injector
is a derivation (`resolves_resolveTo`), and a greater depth changes nothing.

`inj.Invokes i j` says that `j` is resolved directly on behalf of `i`, and `inj.Nested i n j` that
it is resolved on behalf of `i` inside `n` constructions and calls. Neither assumes that resolution
ends. The main statement is `resolution_ends`.
-/

namespace Wiring

/-- The steps in progress are distinct, and they are declared classes and bound providers. -/
structure Trail.Sound (inj : Injector) (trail : Trail) : Prop where
  distinct : trail.Nodup
  declared : trail ⊆ inj.steps

theorem Trail.Sound.nil (inj : Injector) :
  Trail.Sound inj []
  where
  distinct := List.nodup_nil
  declared := List.nil_subset _

/-- There are no more steps in progress than there are steps. -/
theorem Trail.Sound.length_le {inj : Injector} {trail : Trail} (sound : trail.Sound inj) :
  trail.length ≤ inj.steps.length
  := sound.distinct.length_le_of_subset sound.declared

namespace Injector

variable {inj : Injector} {site : Site} {c : ManagedClass} {b : OwnedBinding}
  {params : List String}

/-! ### Steps -/

/-- There are as many steps as classes and bindings to providers together. -/
theorem length_steps (inj : Injector) :
  inj.steps.length
    = inj.classes.length + inj.bindings.countP (·.binding.kind = .toProvider)
  := by
  simp [steps, List.countP_eq_length_filter]

theorem mem_steps {step : Step} (h : step ∈ inj.steps) :
  (∃ c ∈ inj.classes, step = .ofClass c.name)
    ∨ ∃ b ∈ inj.bindings, b.binding.kind = .toProvider ∧ step = .ofProvider b.binding.key
  := by
  obtain h | h := List.mem_append.mp h
  · obtain ⟨c, hc, rfl⟩ := List.mem_map.mp h
    left
    use c
  · obtain ⟨b, hb, rfl⟩ := List.mem_map.mp h
    right
    use b
    simpa using hb

theorem ofClass_mem_steps (declared : inj.class? c.name = some c) :
  .ofClass c.name ∈ inj.steps
  := by
  apply List.mem_append_left
  apply List.mem_map.mpr
  use c, List.mem_of_find?_eq_some declared

theorem ofProvider_mem_steps (bound : inj.binding? b.binding.key = some b)
    (source : b.binding.source = .provider params) :
  .ofProvider b.binding.key ∈ inj.steps
  := by
  apply List.mem_append_right
  apply List.mem_map.mpr
  use b
  simp [List.mem_of_find?_eq_some bound, Binding.kind, source]

/-- A step that closes no cycle is not in progress. -/
theorem not_mem_of_fresh (cycles : inj.options.detectCycles = true) {step : Step}
    (fresh : inj.closesCycle site step = false) :
  step ∉ site.trail
  := by
  simp_all [closesCycle, Trail.contains]

theorem sound_enter (cycles : inj.options.detectCycles = true) {step : Step}
    (sound : site.trail.Sound inj) (declared : step ∈ inj.steps)
    (fresh : inj.closesCycle site step = false) :
  (site.enter step).trail.Sound inj
  where
  distinct := List.nodup_cons.mpr ⟨not_mem_of_fresh cycles fresh, sound.distinct⟩
  declared := List.cons_subset.mpr ⟨declared, sound.declared⟩

/-! ### Resolution to a depth is a derivation -/

/-- What the resolver does at the site is derived. -/
def Derives (inj : Injector) (resolve : Resolver) (site : Site) : Prop :=
  ∀ d p, inj.Offers d →
    inj.Resolves site (.dependency d) p [((resolve site d).run p).1] ((resolve site d).run p).2

variable {resolve : Resolver}

theorem resolves_resolveAll (h : inj.Derives resolve site) (names : List String) (p : Progress) :
  inj.Resolves site (.parameters names) p ((inj.resolveAll resolve site names).run p).1
    ((inj.resolveAll resolve site names).run p).2
  := by
  induction names generalizing p with
  | nil => apply Resolves.noParameters
  | cons name names ih =>
      simp only [resolveAll, List.mapM_cons]
      apply Resolves.parameter (h _ p (inj.offers_parameter name)) (ih _)

theorem resolves_provide
    (bound : inj.binding? b.binding.key = some b) (source : b.binding.source = .provider params)
    (h : inj.closesCycle site (.ofProvider b.binding.key) = false →
      inj.Derives resolve (site.enter (.ofProvider b.binding.key))) (p : Progress) :
  inj.Resolves site (.call b params) p [((inj.provide resolve site b params).run p).1]
    ((inj.provide resolve site b params).run p).2
  := by
  cases closes : inj.closesCycle site (.ofProvider b.binding.key) with
  | true =>
      simp only [provide, closes, if_true]
      apply Resolves.cyclicCall bound source closes
  | false =>
      simp only [provide, closes, Bool.false_eq_true, if_false]
      apply Resolves.call bound source closes (resolves_resolveAll (h closes) params p)

theorem resolves_callSetters (h : inj.Derives resolve site) (c : ManagedClass) (target : String)
    (names : List String) (p : Progress) :
  inj.Resolves site (.setters c target names) p
    ((names.mapM (inj.callSetter resolve site c target)).run p).1
    ((names.mapM (inj.callSetter resolve site c target)).run p).2
  := by
  induction names generalizing p with
  | nil => apply Resolves.noSetters
  | cons name names ih =>
      simp only [List.mapM_cons, callSetter]
      apply Resolves.setter (resolves_resolveAll h _ p) (ih _)

theorem resolves_create (declared : inj.class? c.name = some c)
    (h : inj.Derives resolve (site.enter (.ofClass c.name))) (target : Option String)
    (p : Progress) :
  inj.Resolves site (.creation c target) p [((inj.create resolve site c target).run p).1]
    ((inj.create resolve site c target).run p).2
  := by
  have parameters := resolves_resolveAll h c.decl.params p
  by_cases plain : c.decl.setters = []
  · simp only [create, plain, if_true]
    cases target with
    | none =>
        apply @Resolves.creation inj site c none _ _ _ declared plain parameters
    | some target =>
        apply @Resolves.creation inj site c (some target) _ _ _ declared plain parameters
  · simp only [create, plain, if_false]
    cases target with
    | none =>
        apply @Resolves.creationWithSetters inj site c none _ _ _ _ _ declared plain
          parameters (resolves_callSetters h _ _ _ _)
    | some target =>
        apply @Resolves.creationWithSetters inj site c (some target) _ _ _ _ _ declared plain
          parameters (resolves_callSetters h _ _ _ _)

theorem resolves_laterUse {s : SingletonVariable} {p : Progress}
    (declared : inj.class? c.name = some c)
    (fresh : inj.closesCycle site (.ofClass c.name) = false)
    (held : p.singleton? c.name = some s)
    (h : inj.Derives resolve (site.enter (.ofClass c.name))) :
  inj.Resolves site (.dependency (.object c)) p
    [((inj.laterUse resolve site c s).run (p.addSubclass inj c)).1]
    ((inj.laterUse resolve site c s).run (p.addSubclass inj c)).2
  := by
  cases lazy : s.lazy with
  | true =>
      simp only [laterUse, lazy, if_true]
      apply Resolves.heldLazily declared fresh held lazy (resolves_create declared h _ _)
  | false =>
      simp only [laterUse, lazy, Bool.false_eq_true, if_false]
      apply Resolves.held declared fresh held lazy

theorem resolves_firstUse {p : Progress}
    (declared : inj.class? c.name = some c)
    (fresh : inj.closesCycle site (.ofClass c.name) = false)
    (unheld : p.singleton? c.name = none)
    (h : inj.Derives resolve (site.enter (.ofClass c.name))) :
  inj.Resolves site (.dependency (.object c)) p
    [((inj.firstUse resolve site c).run (p.addSubclass inj c)).1]
    ((inj.firstUse resolve site c).run (p.addSubclass inj c)).2
  := by
  have variable_eq : (p.addSubclass inj c).nextSingleton inj.options
      = p.nextSingleton inj.options := by
    simp [Progress.nextSingleton]
  have deferred_eq : (p.addSubclass inj c).isDeferred = p.isDeferred := by
    simp [Progress.isDeferred]
  cases scope : c.scope with
  | prototype =>
      simp only [firstUse, scope]
      apply Resolves.prototype declared fresh unheld scope (resolves_create declared h _ _)
  | singleton =>
      simp only [firstUse, scope]
      have derived := Resolves.singleton declared fresh unheld scope
        (resolves_create declared h _ _)
      rw [← variable_eq, ← deferred_eq] at derived
      apply derived
  | eagerSingleton =>
      simp only [firstUse, scope]
      have derived := Resolves.eagerSingleton declared fresh unheld scope
        (resolves_create declared h _ _)
      rw [← variable_eq] at derived
      apply derived

theorem resolves_useClass (declared : inj.class? c.name = some c)
    (h : inj.closesCycle site (.ofClass c.name) = false →
      inj.Derives resolve (site.enter (.ofClass c.name))) (p : Progress) :
  inj.Resolves site (.dependency (.object c)) p [((inj.useClass resolve site c).run p).1]
    ((inj.useClass resolve site c).run p).2
  := by
  cases closes : inj.closesCycle site (.ofClass c.name) with
  | true =>
      simp only [useClass, closes, if_true]
      apply Resolves.cyclicObject declared closes
  | false =>
      cases held : p.singleton? c.name with
      | some s =>
          have run : (inj.useClass resolve site c).run p
              = (inj.laterUse resolve site c s).run (p.addSubclass inj c) := by
            have held' : (p.addSubclass inj c).singleton? c.name = some s := by simpa using held
            simp [useClass, closes, held']
          rw [run]
          apply resolves_laterUse declared closes held (h closes)
      | none =>
          have run : (inj.useClass resolve site c).run p
              = (inj.firstUse resolve site c).run (p.addSubclass inj c) := by
            have held' : (p.addSubclass inj c).singleton? c.name = none := by simpa using held
            simp [useClass, closes, held']
          rw [run]
          apply resolves_firstUse declared closes held (h closes)

/-- Resolution to a depth is a derivation if the depth exceeds the steps that are left. -/
theorem resolves_resolveTo (cycles : inj.options.detectCycles = true) {n : Nat}
    (sound : site.trail.Sound inj) (enough : inj.steps.length < site.trail.length + n) :
  inj.Derives (inj.resolveTo n) site
  := by
  induction n generalizing site with
  | zero =>
      have bounded := sound.length_le
      omega
  | succ n ih =>
      -- below a fresh step one step fewer is left
      have inner : ∀ step ∈ inj.steps, inj.closesCycle site step = false →
          inj.Derives (inj.resolveTo n) (site.enter step) := by
        intro step declared fresh
        apply ih (sound_enter cycles sound declared fresh)
        simp only [Site.enter, List.length_cons]
        omega
      intro d p offers
      cases d with
      | value e => apply Resolves.value offers
      | absent problem => apply Resolves.absent
      | object c => apply resolves_useClass offers (inner _ (ofClass_mem_steps offers))
      | provided b params =>
          obtain ⟨bound, source⟩ := offers
          apply Resolves.provided
          apply resolves_provide bound source (inner _ (ofProvider_mem_steps bound source))
      | providerFunction b params =>
          obtain ⟨bound, source⟩ := offers
          apply Resolves.providerFunction
          apply resolves_provide bound source (inner _ (ofProvider_mem_steps bound source))

end Injector

/-! ### Nested resolution -/

/-- A task that is taken up at a site, and how far resolution has come by then. -/
structure Invocation where
  site : Site
  task : Task
  progress : Progress

namespace Invocation

/-- The task is a construction or a call of a provider. -/
def opens (i : Invocation) : Bool :=
  match i.task with
  | .creation _ _ => true
  | .call _ _ => true
  | _ => false

/-- The task is a call of a provider that closes a cycle. -/
def isRefused (inj : Injector) (i : Invocation) : Bool :=
  match i.task with
  | .call b _ => inj.closesCycle i.site (.ofProvider b.binding.key)
  | _ => false

end Invocation

namespace Injector

variable {inj : Injector}

/-- The second invocation is made directly by the first one. What is resolved before it on behalf
of the first one has ended; nothing is said of what comes after it. -/
inductive Invokes (inj : Injector) : Invocation → Invocation → Prop where
  | heldLazily {site c p s}
    (fresh : inj.closesCycle site (.ofClass c.name) = false)
    (held : p.singleton? c.name = some s) (lazy : s.lazy = true) :
    Invokes inj ⟨site, .dependency (.object c), p⟩
      ⟨site, .creation c (some s.name), p.addSubclass inj c⟩
  | prototype {site c p}
    (fresh : inj.closesCycle site (.ofClass c.name) = false)
    (unheld : p.singleton? c.name = none) (scope : c.scope = .prototype) :
    Invokes inj ⟨site, .dependency (.object c), p⟩ ⟨site, .creation c none, p.addSubclass inj c⟩
  | singleton {site c p}
    (fresh : inj.closesCycle site (.ofClass c.name) = false)
    (unheld : p.singleton? c.name = none) (scope : c.scope = .singleton) :
    Invokes inj ⟨site, .dependency (.object c), p⟩
      ⟨site, .creation c (some (p.nextSingleton inj.options)),
        (p.addSubclass inj c).takeSingleton inj.options c.name p.isDeferred⟩
  | eagerSingleton {site c p}
    (fresh : inj.closesCycle site (.ofClass c.name) = false)
    (unheld : p.singleton? c.name = none) (scope : c.scope = .eagerSingleton) :
    Invokes inj ⟨site, .dependency (.object c), p⟩
      ⟨site, .creation c (some (p.nextSingleton inj.options)),
        (p.addSubclass inj c).takeSingleton inj.options c.name false⟩
  | provided {site b params p} :
    Invokes inj ⟨site, .dependency (.provided b params), p⟩ ⟨site, .call b params, p⟩
  | providerFunction {site b params p} :
    Invokes inj ⟨site, .dependency (.providerFunction b params), p⟩
      ⟨site, .call b params, p.defer⟩
  | call {site b params p}
    (fresh : inj.closesCycle site (.ofProvider b.binding.key) = false) :
    Invokes inj ⟨site, .call b params, p⟩
      ⟨site.enter (.ofProvider b.binding.key), .parameters params, p⟩
  | creation {site c target p} :
    Invokes inj ⟨site, .creation c target, p⟩
      ⟨site.enter (.ofClass c.name), .parameters c.decl.params, p⟩
  | setters {site c target p args p'}
    (plain : c.decl.setters ≠ [])
    (parameters : inj.Resolves (site.enter (.ofClass c.name)) (.parameters c.decl.params) p
      args p') :
    Invokes inj ⟨site, .creation c target, p⟩
      ⟨site.enter (.ofClass c.name),
        .setters c (p'.holder inj.options target) c.decl.setters, p'.hold inj.options target⟩
  | parameter {site name names p} :
    Invokes inj ⟨site, .parameters (name :: names), p⟩
      ⟨site, .dependency (inj.parameter name), p⟩
  | laterParameters {site name names p e p'}
    (first : inj.Resolves site (.dependency (inj.parameter name)) p [e] p') :
    Invokes inj ⟨site, .parameters (name :: names), p⟩ ⟨site, .parameters names, p'⟩
  | setter {site c target name names p} :
    Invokes inj ⟨site, .setters c target (name :: names), p⟩
      ⟨site, .parameters (c.decl.methodParams name), p⟩
  | laterSetters {site c target name names p args p'}
    (first : inj.Resolves site (.parameters (c.decl.methodParams name)) p args p') :
    Invokes inj ⟨site, .setters c target (name :: names), p⟩ ⟨site, .setters c target names, p'⟩

/-- The invocation is made on behalf of the first one, inside as many constructions and calls of
providers, itself included if it is one. -/
inductive Nested (inj : Injector) (first : Invocation) : Nat → Invocation → Prop where
  | first : Nested inj first first.opens.toNat first
  | next {n i j} (outer : Nested inj first n i) (invokes : inj.Invokes i j) :
    Nested inj first (n + j.opens.toNat) j

end Injector

/-- The task asks for something that the injector offers, and a construction is only taken up
where it closes no cycle. -/
def Task.Sound (inj : Injector) (site : Site) : Task → Prop
  | .dependency d => inj.Offers d
  | .call b params => inj.binding? b.binding.key = some b ∧ b.binding.source = .provider params
  | .creation c _ =>
    inj.class? c.name = some c ∧ inj.closesCycle site (.ofClass c.name) = false
  | _ => True

/-- What the invocations of a resolution keep: the steps in progress are sound, and so is the
task. -/
structure Invocation.Sound (inj : Injector) (i : Invocation) : Prop where
  trail : i.site.trail.Sound inj
  task : i.task.Sound inj i.site

namespace Injector

variable {inj : Injector} {i j : Invocation}

/-- An invocation made by a sound one is sound. -/
theorem Invokes.sound (cycles : inj.options.detectCycles = true) (h : inj.Invokes i j)
    (sound : i.Sound inj) :
  j.Sound inj
  := by
  obtain ⟨trail, task⟩ := sound
  cases h with
  | heldLazily fresh _ _ => exact ⟨trail, task, fresh⟩
  | prototype fresh _ _ => exact ⟨trail, task, fresh⟩
  | singleton fresh _ _ => exact ⟨trail, task, fresh⟩
  | eagerSingleton fresh _ _ => exact ⟨trail, task, fresh⟩
  | provided => exact ⟨trail, task⟩
  | providerFunction => exact ⟨trail, task⟩
  | call fresh =>
      obtain ⟨bound, source⟩ := task
      exact ⟨sound_enter cycles trail (ofProvider_mem_steps bound source) fresh, trivial⟩
  | creation =>
      obtain ⟨declared, fresh⟩ := task
      exact ⟨sound_enter cycles trail (ofClass_mem_steps declared) fresh, trivial⟩
  | setters _ _ =>
      obtain ⟨declared, fresh⟩ := task
      exact ⟨sound_enter cycles trail (ofClass_mem_steps declared) fresh, trivial⟩
  | parameter => exact ⟨trail, inj.offers_parameter _⟩
  | laterParameters _ => exact ⟨trail, trivial⟩
  | setter => exact ⟨trail, trivial⟩
  | laterSetters _ => exact ⟨trail, trivial⟩

/-- The trail grows by a step exactly where a construction or a call is entered. -/
theorem Invokes.length_trail (h : inj.Invokes i j) :
  j.site.trail.length = i.site.trail.length + i.opens.toNat
  := by
  cases h <;> simp [Invocation.opens, Site.enter]

/-- A call that is refused resolves nothing. -/
theorem Invokes.not_isRefused (h : inj.Invokes i j) :
  i.isRefused inj = false
  := by
  cases h with
  | call fresh => exact fresh
  | _ => rfl

/-- Everything made on behalf of a sound invocation is sound. -/
theorem Nested.sound (cycles : inj.options.detectCycles = true) {n : Nat}
    (h : inj.Nested i n j) (sound : i.Sound inj) :
  j.Sound inj
  := by
  induction h with
  | first => apply sound
  | next _ invokes ih => apply invokes.sound cycles ih

/-- The trail holds a step for each construction and each call around the invocation. -/
theorem Nested.eq_length_trail {n : Nat} (h : inj.Nested i n j) (outermost : i.site.trail = []) :
  n = j.site.trail.length + j.opens.toNat
  := by
  induction h with
  | first => simp [outermost]
  | next _ invokes ih => rw [ih, invokes.length_trail]

/-- A sound construction or call leaves room for its own step, unless it is refused. -/
theorem depth_le_of_sound (cycles : inj.options.detectCycles = true) (sound : i.Sound inj) :
  i.site.trail.length + i.opens.toNat ≤ inj.steps.length + (i.isRefused inj).toNat
  := by
  obtain ⟨site, task, p⟩ := i
  obtain ⟨trail, task_sound⟩ := sound
  have entered : ∀ step ∈ inj.steps, inj.closesCycle site step = false →
      site.trail.length + 1 ≤ inj.steps.length :=
    fun step declared fresh => (sound_enter cycles trail declared fresh).length_le
  cases task with
  | creation c target =>
      obtain ⟨declared, fresh⟩ := task_sound
      apply entered _ (ofClass_mem_steps declared) fresh
  | call b params =>
      obtain ⟨bound, source⟩ := task_sound
      cases closes : inj.closesCycle site (.ofProvider b.binding.key) with
      | true => simpa [Invocation.opens, Invocation.isRefused, closes] using trail.length_le
      | false =>
          simpa [Invocation.opens, Invocation.isRefused, closes] using
            entered _ (ofProvider_mem_steps bound source) closes
  | _ => simpa [Invocation.opens, Invocation.isRefused] using trail.length_le

/-- Resolution to any depth from that of the injector on is a derivation, where nothing is in
progress yet. -/
theorem resolves_outermost (cycles : inj.options.detectCycles = true) (location : Location)
    (n : Nat) :
  inj.Derives (inj.resolveTo (inj.depth + n)) ⟨location, []⟩
  := by
  apply resolves_resolveTo cycles (.nil inj)
  simp only [depth, cycles, if_true, List.length_nil]
  omega

/-- Where cycles are looked for, resolving a request ends, whatever has been resolved before and
however the bindings depend on each other: it has a derivation, and resolution to any depth from
that of the injector on gives what is derived. At every nested invocation the steps in progress
are distinct, each of them is a declared class or a bound provider, and there are no more
constructions and calls of providers around it than there are declared classes and bindings to
providers. A call that is refused may be one more, and nothing is resolved on its behalf. -/
theorem resolution_ends (inj : Injector) (cycles : inj.options.detectCycles = true)
    (p : Progress) (request : Request) :
  (∃ e p', inj.Resolves ⟨request.location, []⟩ (.dependency (inj.requested request.wanted)) p
        [e] p'
      ∧ (inj.resolve request).run p = (e, p')
      ∧ ∀ n, (inj.resolveTo (inj.depth + n) ⟨request.location, []⟩
          (inj.requested request.wanted)).run p = (e, p'))
    ∧ ∀ n i,
      inj.Nested ⟨⟨request.location, []⟩, .dependency (inj.requested request.wanted), p⟩ n i →
      i.site.trail.Nodup
      ∧ (∀ step ∈ i.site.trail, (∃ c ∈ inj.classes, step = .ofClass c.name)
        ∨ ∃ b ∈ inj.bindings, b.binding.kind = .toProvider ∧ step = .ofProvider b.binding.key)
      ∧ n ≤ inj.classes.length + inj.bindings.countP (·.binding.kind = .toProvider)
        + (i.isRefused inj).toNat
      ∧ (i.isRefused inj = true → ∀ j, ¬ inj.Invokes i j)
  := by
  have offers := inj.offers_requested request.wanted
  have derived := resolves_outermost cycles request.location 0 _ p offers
  constructor
  · refine ⟨_, _, derived, rfl, fun n => ?_⟩
    have deeper := resolves_outermost cycles request.location n _ p offers
    obtain ⟨he, hp⟩ := deeper.deterministic derived
    exact Prod.ext (List.cons.inj he).1 hp
  · intro n i nested
    have sound := nested.sound cycles ⟨.nil inj, offers⟩
    refine ⟨sound.trail.distinct, fun step h => mem_steps (sound.trail.declared h), ?_, ?_⟩
    · rw [nested.eq_length_trail rfl, ← length_steps]
      apply depth_le_of_sound cycles sound
    · intro refused j invokes
      cases refused.symm.trans invokes.not_isRefused

/-- A class that needs the value of a provider, which needs an object of the class. -/
def looping : Injector where
  options := {}
  entry := { name := "main", modules := ["Loop"] }
  modules := []
  bindings :=
    [ ⟨{ key := "node", source := .type "Node", scope := some .singleton }, "loop"⟩,
      ⟨{ key := "next", source := .provider ["node"] }, "loop"⟩ ]
  interceptors := []
  classes :=
    [ ⟨{ name := "Node", params := ["next", "nextProvider"] }, .singleton, [], false⟩ ]

/-- Resolution ends in a loop of bindings, inside no more than its two steps and a refused call. -/
theorem resolution_ends_looping :
  looping.options.detectCycles = true
    ∧ (∃ e p', (looping.resolve ⟨.ofKey "node", {}⟩).run {} = (e, p'))
    ∧ ∀ n i, looping.Nested ⟨⟨{}, []⟩, .dependency (looping.requested (.ofKey "node")), {}⟩ n i →
      n ≤ 2 + (i.isRefused looping).toNat
  := by
  obtain ⟨⟨e, p', -, run, -⟩, nested⟩ :=
    resolution_ends looping rfl {} ⟨.ofKey "node", {}⟩
  exact ⟨rfl, ⟨e, p', run⟩, fun n i h => (nested n i h).2.2.1⟩

/-! ### A refused call -/

/-- An echo is asked for. -/
def calling : EntryPoint where
  name := "calling"
  modules := ["Valley"]
  requests := [⟨.ofKey "echo", {}⟩]

/-- A valley that needs an echo to make an echo. -/
def valleyDeclarations : List Declaration :=
  [ .ofModule { name := "Valley", bindings := [{ key := "echo", source := .provider ["echo"] }] },
    .ofEntry calling ]

def valley : Catalog :=
  (Registry.addAll {} {} valleyDeclarations >>= Registry.close).value

/-- The one binding of the valley. -/
def echo : OwnedBinding :=
  ⟨{ key := "echo", source := .provider ["echo"], owner := "Valley" }, "valley"⟩

/-- The injector that serves the caller. -/
def valleyInjector : Injector where
  options := {}
  entry := calling
  modules := [{ name := "valley", moduleName := "Valley", configure := "configure" }]
  bindings := [echo]
  interceptors := []
  classes := []

theorem select_valley :
  ((ofEntry valley {} calling).select valley .literal).value = valleyInjector
  := by
  have ofEntry_valley : ofEntry valley {} calling = valleyInjector := by
    rw [ofEntry_eq]
    decide +kernel
  rw [ofEntry_valley]
  rfl

/-- For the echo the provider is called, and for this call once more. -/
theorem nested_valley :
  valleyInjector.Nested
    ⟨⟨{}, []⟩, .dependency (valleyInjector.requested (.ofKey "echo")), {}⟩ 2
    ⟨⟨{}, [.ofProvider "echo"]⟩, .call echo ["echo"], {}⟩
  := by
  have outer : valleyInjector.Nested
      ⟨⟨{}, []⟩, .dependency (valleyInjector.requested (.ofKey "echo")), {}⟩ 1
      ⟨⟨{}, []⟩, .call echo ["echo"], {}⟩ := .next .first .provided
  exact ((outer.next (.call rfl)).next .parameter).next .provided

/-- The second call is refused, and there is but one step for both of them. -/
theorem nested_deeper_than_steps_valley :
  ¬ ∀ (options : Options) (declarations : List Declaration) (entry : EntryPoint),
    let catalog := (Registry.addAll options {} declarations >>= Registry.close).value
    let inj := ((ofEntry catalog options entry).select catalog options.namespaceMode).value
    entry ∈ catalog.entries → options.detectCycles = true → ∀ (p : Progress) (request : Request) n i,
      inj.Nested ⟨⟨request.location, []⟩, .dependency (inj.requested request.wanted), p⟩ n i →
      n ≤ inj.classes.length + inj.bindings.countP (·.binding.kind = .toProvider)
  := by
  intro bounded
  have entries : calling ∈ valley.entries := by decide +kernel
  have bound := bounded {} valleyDeclarations calling entries rfl {} ⟨.ofKey "echo", {}⟩ 2
  change ∀ i, ((ofEntry valley {} calling).select valley .literal).value.Nested _ 2 i → _ at bound
  rw [select_valley] at bound
  exact absurd (bound _ nested_valley) (by decide)

end Injector

end Wiring
