import Wiring.Proofs.Resolution.Termination
import Mathlib.Data.List.Chain
import Mathlib.Data.List.TakeWhile

/-!
# The dependency graph

The graph on which resolution runs, read off the tables of an injector. Its nodes are steps, that is
classes and provider keys. A class needs what the parameters of its constructor and of its setters
lead to, a provider what its own parameters lead to; a parameter leads to what is bound under its
name or, if nothing is, to the provider of the key before the provider suffix.

The steps in progress form a walk in this graph from where resolution starts (`Trail.Walks`), so the
cycle that a step would close is a closed walk (`Trail.Walks.closedWalk_cycle`).
-/

namespace Wiring

namespace Injector

open Relation

/-! ### Edges -/

/-- The key is bound to a declared class or to a provider. -/
inductive Binds (inj : Injector) : String → Step → Prop where
  | toClass {key b className c}
    (bound : inj.binding? key = some b) (source : b.binding.source = .type className)
    (declared : inj.class? className = some c) :
    Binds inj key (.ofClass className)
  | toProvider {key b params}
    (bound : inj.binding? key = some b) (source : b.binding.source = .provider params) :
    Binds inj key (.ofProvider key)

/-- The parameter of a name leads to a declared class or to a provider. -/
inductive Leads (inj : Injector) : String → Step → Prop where
  | bound {name step} (binds : inj.Binds name step) : Leads inj name step
  | suffixed {name key b params}
    (unbound : inj.binding? name = none) (suffix : inj.options.providedKey? name = some key)
    (bound : inj.binding? key = some b) (source : b.binding.source = .provider params) :
    Leads inj name (.ofProvider key)

/-- The first step needs the second one. -/
inductive Edge (inj : Injector) : Step → Step → Prop where
  | constructor {className c name step}
    (declared : inj.class? className = some c) (param : name ∈ c.decl.params)
    (leads : inj.Leads name step) :
    Edge inj (.ofClass className) step
  | setter {className c setter name step}
    (declared : inj.class? className = some c) (isSetter : setter ∈ c.decl.setters)
    (param : name ∈ c.decl.methodParams setter) (leads : inj.Leads name step) :
    Edge inj (.ofClass className) step
  | provider {key b params name step}
    (bound : inj.binding? key = some b) (source : b.binding.source = .provider params)
    (param : name ∈ params) (leads : inj.Leads name step) :
    Edge inj (.ofProvider key) step

/-- Resolution starts at the classes that are constructed eagerly and at what the requests of the
entry point ask for. -/
inductive Root (inj : Injector) : Step → Prop where
  | eager {className c}
    (declared : inj.class? className = some c) (scope : c.scope = .eagerSingleton) :
    Root inj (.ofClass className)
  | requestedClass {request className c}
    (requested : request ∈ inj.entry.requests) (wanted : request.wanted = .ofClass className)
    (declared : inj.class? className = some c) :
    Root inj (.ofClass className)
  | requestedKey {request key step}
    (requested : request ∈ inj.entry.requests) (wanted : request.wanted = .ofKey key)
    (binds : inj.Binds key step) :
    Root inj step

/-- The step is needed for something that resolution starts at. -/
def Reachable (inj : Injector) (step : Step) : Prop :=
  ∃ root, inj.Root root ∧ ReflTransGen inj.Edge root step

/-- Each step needs the next one, and the last one is the first one again. -/
structure ClosedWalk (inj : Injector) (walk : List Step) : Prop where
  chain : walk.IsChain inj.Edge
  closed : ∃ step between, walk = step :: (between ++ [step])

variable {inj : Injector}

/-! ### The graph and the dependencies -/

theorem objectOf_step?_eq_some {className : String} {step : Step} :
  (inj.objectOf className).step? = some step
    ↔ ∃ c, inj.class? className = some c ∧ step = .ofClass className
  := by
  unfold objectOf
  cases declared : inj.class? className with
  | none => simp [Dependency.step?]
  | some c =>
      obtain rfl := name_of_class? declared
      simp [Dependency.step?, eq_comm]

theorem bound_step?_eq_some {key : String} {b : OwnedBinding} {step : Step}
    (bound : inj.binding? key = some b) :
  (inj.bound b).step? = some step ↔ inj.Binds key step
  := by
  obtain rfl := key_of_binding? bound
  constructor
  · unfold Injector.bound
    split
    · next className source =>
        intro h
        obtain ⟨c, declared, rfl⟩ := objectOf_step?_eq_some.mp h
        exact .toClass bound source declared
    · intro h
      cases h
    · next params source =>
        intro h
        obtain rfl := Option.some.inj h
        exact .toProvider bound source
  · intro h
    cases h with
    | toClass bound' source declared =>
        obtain rfl := Option.some.inj (bound.symm.trans bound')
        rw [Injector.bound, source]
        apply objectOf_step?_eq_some.mpr
        exact ⟨_, declared, rfl⟩
    | toProvider bound' source =>
        obtain rfl := Option.some.inj (bound.symm.trans bound')
        rw [Injector.bound, source]
        rfl

theorem not_binds_of_unbound {key : String} {step : Step} (unbound : inj.binding? key = none) :
  ¬ inj.Binds key step
  := by
  intro h
  cases h <;> simp_all

/-- A parameter leads to the step that its resolution starts with. -/
theorem parameter_step?_eq_some {name : String} {step : Step} :
  (inj.parameter name).step? = some step ↔ inj.Leads name step
  := by
  unfold parameter
  cases bound : inj.binding? name with
  | some b =>
      simp only [bound_step?_eq_some bound]
      constructor
      · intro h
        exact .bound h
      · intro h
        cases h with
        | bound binds => exact binds
        | suffixed unbound => simp_all
  | none =>
      simp only [providerOf]
      constructor
      · intro h
        split at h
        · cases h
        · next key suffix =>
            split at h
            · cases h
            · next b bound' =>
                obtain rfl := key_of_binding? bound'
                split at h
                · next params source =>
                    obtain rfl := Option.some.inj h
                    exact .suffixed bound suffix bound' source
                · cases h
      · intro h
        cases h with
        | bound binds => cases not_binds_of_unbound bound binds
        | suffixed _ suffix bound' source =>
            rw [suffix]
            simp only [bound', source]
            rw [← key_of_binding? bound']
            rfl

/-- A request of the entry point starts with a root. -/
theorem root_of_requested {request : Request} {step : Step} (h : request ∈ inj.entry.requests)
    (starts : (inj.requested request.wanted).step? = some step) :
  inj.Root step
  := by
  unfold requested at starts
  split at starts
  · next className wanted =>
      obtain ⟨c, declared, rfl⟩ := objectOf_step?_eq_some.mp starts
      exact .requestedClass h wanted declared
  · next key wanted =>
      split at starts
      · next b bound => exact .requestedKey h wanted ((bound_step?_eq_some bound).mp starts)
      · cases starts

end Injector

/-- The steps that resolving the task starts with, if it is more than look-ups. -/
def Task.Starts (inj : Injector) : Task → Step → Prop
  | .dependency (.object c), step => step = .ofClass c.name
  | .dependency (.provided b _), step => step = .ofProvider b.binding.key
  | .dependency (.providerFunction b _), step => step = .ofProvider b.binding.key
  | .dependency _, _ => False
  | .parameters names, step => ∃ name ∈ names, inj.Leads name step
  | .call b _, step => step = .ofProvider b.binding.key
  | .creation c _, step => step = .ofClass c.name
  | .setters c _ names, step =>
    ∃ setter ∈ names, ∃ name ∈ c.decl.methodParams setter, inj.Leads name step

namespace Injector

open Relation

variable {inj : Injector}

theorem starts_dependency_iff {d : Dependency} {step : Step} :
  (Task.dependency d).Starts inj step ↔ d.step? = some step
  := by
  cases d <;> simp [Task.Starts, Dependency.step?, eq_comm]

theorem starts_parameters_cons {name : String} {names : List String} {step : Step} :
  (Task.parameters (name :: names)).Starts inj step
    ↔ (Task.dependency (inj.parameter name)).Starts inj step
      ∨ (Task.parameters names).Starts inj step
  := by
  rw [starts_dependency_iff, parameter_step?_eq_some]
  simp only [Task.Starts, List.exists_mem_cons_iff]

theorem starts_setters_cons {c : ManagedClass} {target name : String} {names : List String}
    {step : Step} :
  (Task.setters c target (name :: names)).Starts inj step
    ↔ (Task.parameters (c.decl.methodParams name)).Starts inj step
      ∨ (Task.setters c target names).Starts inj step
  := by
  simp only [Task.Starts, List.exists_mem_cons_iff]

/-- What is true of all that parameters start with is true of the first one and of the others. -/
theorem forall_starts_parameters_cons {P : Step → Prop} {name : String} {names : List String} :
  (∀ step, (Task.parameters (name :: names)).Starts inj step → P step)
    ↔ (∀ step, (Task.dependency (inj.parameter name)).Starts inj step → P step)
      ∧ ∀ step, (Task.parameters names).Starts inj step → P step
  := by
  simp only [starts_parameters_cons, or_imp, forall_and]

/-- What is true of all that setters start with is true of the first one and of the others. -/
theorem forall_starts_setters_cons {P : Step → Prop} {c : ManagedClass} {target name : String}
    {names : List String} :
  (∀ step, (Task.setters c target (name :: names)).Starts inj step → P step)
    ↔ (∀ step, (Task.parameters (c.decl.methodParams name)).Starts inj step → P step)
      ∧ ∀ step, (Task.setters c target names).Starts inj step → P step
  := by
  simp only [starts_setters_cons, or_imp, forall_and]

section

variable {c : ManagedClass} {b : OwnedBinding} {params : List String} {target : String}
  {step : Step}

theorem edge_of_parameters (declared : inj.class? c.name = some c)
    (h : (Task.parameters c.decl.params).Starts inj step) :
  inj.Edge (.ofClass c.name) step
  := by
  obtain ⟨name, param, leads⟩ := h
  exact .constructor declared param leads

theorem edge_of_setters (declared : inj.class? c.name = some c)
    (h : (Task.setters c target c.decl.setters).Starts inj step) :
  inj.Edge (.ofClass c.name) step
  := by
  obtain ⟨setter, isSetter, name, param, leads⟩ := h
  exact .setter declared isSetter param leads

theorem edge_of_provider (bound : inj.binding? b.binding.key = some b)
    (source : b.binding.source = .provider params) (h : (Task.parameters params).Starts inj step) :
  inj.Edge (.ofProvider b.binding.key) step
  := by
  obtain ⟨name, param, leads⟩ := h
  exact .provider bound source param leads

/-- A class needs nothing but what its construction starts with. -/
theorem starts_of_edge_ofClass (declared : inj.class? c.name = some c) (target : String)
    (h : inj.Edge (.ofClass c.name) step) :
  (Task.parameters c.decl.params).Starts inj step
    ∨ (Task.setters c target c.decl.setters).Starts inj step
  := by
  cases h with
  | @constructor _ c' name _ declared' param leads =>
      obtain rfl := Option.some.inj (declared.symm.trans declared')
      left
      use name, param
  | @setter _ c' setter name _ declared' isSetter param leads =>
      obtain rfl := Option.some.inj (declared.symm.trans declared')
      right
      use setter, isSetter, name, param

/-- A provider needs nothing but what its call starts with. -/
theorem starts_of_edge_ofProvider (bound : inj.binding? b.binding.key = some b)
    (source : b.binding.source = .provider params) (h : inj.Edge (.ofProvider b.binding.key) step) :
  (Task.parameters params).Starts inj step
  := by
  cases h with
  | @provider _ b' params' name _ bound' source' param leads =>
      obtain rfl := Option.some.inj (bound.symm.trans bound')
      obtain rfl := Source.provider.inj (source.symm.trans source')
      use name, param

end

/-! ### Tests -/

/-- All edges pass a test, read off the tables. -/
def edgesPass (inj : Injector) (test : Step → Step → Bool) : Bool :=
  let leads (step : Step) (name : String) := (inj.parameter name).step?.all (test step)
  inj.classes.all (fun c => (c.decl.params ++ c.decl.setters.flatMap c.decl.methodParams).all
      (leads (.ofClass c.name)))
    && inj.bindings.all fun b =>
      match b.binding.source with
      | .provider params => params.all (leads (.ofProvider b.binding.key))
      | _ => true

theorem test_of_edge {test : Step → Step → Bool} (pass : inj.edgesPass test = true)
    {step next : Step} (edge : inj.Edge step next) :
  test step next = true
  := by
  simp only [edgesPass, Bool.and_eq_true, List.all_eq_true] at pass
  obtain ⟨classes, bindings⟩ := pass
  have tested {name : String} (leads : inj.Leads name next)
      (all : (inj.parameter name).step?.all (test step) = true) : test step next = true := by
    rw [parameter_step?_eq_some.mpr leads] at all
    simpa using all
  cases edge with
  | constructor declared param leads =>
      obtain rfl := name_of_class? declared
      apply tested leads
      apply classes _ (List.mem_of_find?_eq_some declared)
      apply List.mem_append_left _ param
  | setter declared isSetter param leads =>
      obtain rfl := name_of_class? declared
      apply tested leads
      apply classes _ (List.mem_of_find?_eq_some declared)
      apply List.mem_append_right
      apply List.mem_flatMap_of_mem isSetter param
  | provider bound source param leads =>
      have all := bindings _ (List.mem_of_find?_eq_some bound)
      rw [source, List.all_eq_true, key_of_binding? bound] at all
      apply tested leads (all _ param)

/-! ### Walks -/

theorem Edge.ne_request {a b : Step} (h : inj.Edge a b) :
  b ≠ .request
  := by
  have ne_request : ∀ {name}, inj.Leads name b → b ≠ .request := by
    intro name leads
    rcases leads with ⟨⟨⟩ | ⟨⟩⟩ | _ <;> simp
  cases h with
  | constructor _ _ leads => apply ne_request leads
  | setter _ _ _ leads => apply ne_request leads
  | provider _ _ _ leads => apply ne_request leads

theorem Root.ne_request {step : Step} (h : inj.Root step) :
  step ≠ .request
  := by
  cases h with
  | requestedKey _ _ binds => cases binds <;> simp
  | _ => simp

theorem Reachable.ne_request {step : Step} (h : inj.Reachable step) :
  step ≠ .request
  := by
  obtain ⟨root, isRoot, path⟩ := h
  cases path with
  | refl => apply isRoot.ne_request
  | tail _ edge => apply edge.ne_request

theorem Reachable.tail {a b : Step} (h : inj.Reachable a) (edge : inj.Edge a b) :
  inj.Reachable b
  := by
  obtain ⟨root, isRoot, path⟩ := h
  use root, isRoot, path.tail edge

/-- A closed walk passes a step that needs itself. -/
theorem ClosedWalk.cyclic {walk : List Step} (h : inj.ClosedWalk walk) :
  ∃ step ∈ walk, TransGen inj.Edge step step
  := by
  obtain ⟨chain, step, between, rfl⟩ := h
  use step, List.mem_cons_self
  cases between with
  | nil => exact .single (List.isChain_cons_cons.mp chain).1
  | cons next between =>
      obtain ⟨edge, chain⟩ := List.isChain_cons_cons.mp chain
      apply TransGen.head' edge
      apply List.relationReflTransGen_of_exists_isChain_cons (between ++ [step]) chain
      simp

end Injector

/-- The steps in progress are a walk from where resolution starts, innermost first. -/
structure Trail.Walks (inj : Injector) (trail : Trail) : Prop where
  chain : trail.IsChain fun inner outer => inj.Edge outer inner
  reachable : ∀ step ∈ trail, inj.Reachable step

namespace Trail.Walks

variable {inj : Injector} {trail : Trail} {step next : Step}

theorem start (root : inj.Root step) :
  Trail.Walks inj [step]
  where
  chain := .singleton step
  reachable := by
    simp only [List.mem_singleton, forall_eq]
    use step, root

/-- A walk goes on with a step that its last one needs. -/
theorem extend (h : Trail.Walks inj (step :: trail)) (edge : inj.Edge step next) :
  Trail.Walks inj (next :: step :: trail)
  where
  chain := .cons_cons edge h.chain
  reachable := by
    have reachable := h.reachable step List.mem_cons_self
    intro s hs
    obtain rfl | hs := List.mem_cons.mp hs
    · apply reachable.tail edge
    · apply h.reachable s hs

/-- Everything in progress needs the step that the walk has come to. -/
theorem transGen (h : Trail.Walks inj (step :: trail)) :
  ∀ s ∈ trail, Relation.TransGen inj.Edge s step
  := by
  induction trail generalizing step with
  | nil => simp
  | cons first trail ih =>
      obtain ⟨edge, chain⟩ := List.isChain_cons_cons.mp h.chain
      have inner : Trail.Walks inj (first :: trail) :=
        ⟨chain, fun s hs => h.reachable s (List.mem_cons_of_mem _ hs)⟩
      intro s hs
      obtain rfl | hs := List.mem_cons.mp hs
      · exact .single edge
      · exact (ih inner s hs).tail edge

/-- The steps inside a step in progress, and the step itself, are the innermost ones. -/
theorem between_prefix (h : step ∈ trail) :
  trail.takeWhile (· ≠ step) ++ [step] <+: trail
  := by
  induction trail with
  | nil => cases h
  | cons first trail ih =>
      by_cases eq : first = step
      · simp [eq]
      · have inside : step ∈ trail := (List.mem_cons.mp h).resolve_left (Ne.symm eq)
        simpa [eq] using ih inside

/-- The cycle that a step closes is a closed walk of steps that are needed. -/
theorem closedWalk_cycle (h : Trail.Walks inj (step :: trail)) (closes : trail.contains step) :
  inj.ClosedWalk (trail.cycle step) ∧ ∀ s ∈ trail.cycle step, inj.Reachable s
  := by
  have reachable : inj.Reachable step := h.reachable step List.mem_cons_self
  have inside : step ∈ trail := by
    simpa [Trail.contains, reachable.ne_request] using closes
  have all : trail.takeWhile (· ≠ .request) = trail := by
    apply List.takeWhile_eq_self_iff.mpr
    intro s hs
    simpa using (h.reachable s (List.mem_cons_of_mem _ hs)).ne_request
  have cycle_eq : trail.cycle step
      = (step :: (trail.takeWhile (· ≠ step) ++ [step])).reverse := by
    simp only [Trail.cycle, all, inside, if_true]
    simp
  have front : step :: (trail.takeWhile (· ≠ step) ++ [step]) <+: step :: trail := by
    simpa using between_prefix inside
  rw [cycle_eq]
  constructor
  · constructor
    · apply List.isChain_reverse.mpr
      apply h.chain.prefix front
    · use step, (trail.takeWhile (· ≠ step)).reverse
      simp
  · intro s hs
    apply h.reachable s
    apply front.subset
    simpa using hs

end Trail.Walks

end Wiring
