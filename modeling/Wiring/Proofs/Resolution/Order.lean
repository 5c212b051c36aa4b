import Wiring.Proofs.Resolution.Affects

/-!
# The order of reads and writes

A plan is meant to assign the variable of a singleton before it reads it. Where cycles are looked
for, the only statements that fail to are those of eager objects that another eager object needs:
such a statement is emitted while the expression of the other one is unfinished, and may read what
that expression is the first to assign (`reads_follow_writes_iff`). Answers to requests never do.
-/

namespace Wiring

open Relation

namespace Injector

open Progress

variable {inj : Injector} {site : Site} {task : Task} {p p' q : Progress} {es : List Expr}
  {className v : String} {c : ManagedClass} {errands : List Errand}

/-! ### Between errands -/

/-- With no step in progress, a settled variable is assigned by some statement, and if one reads it
too early, then it is that of an eager object which another eager object needs. -/
structure Accounted (inj : Injector) (className v : String) (p : Progress) : Prop where
  written : p.Settled className → p.Written v
  hoists : p.Broken v → inj.Hoists v p.statements.toList

theorem accounted_start (inj : Injector) (className v : String) :
  inj.Accounted className v {}
  where
  written settled := by
    obtain ⟨s, ⟨⟩, -⟩ := settled
  hoists broken := by cases broken

/-- What an errand does to the variable. -/
theorem effect_of_errand (cycles : inj.options.detectCycles = true) (apart : inj.Apart v)
    {errand : Errand} {e : Expr}
    (h : inj.Resolves ⟨errand.location, []⟩ (.dependency (errand.dependency inj)) p [e] q)
    (owns : q.Owns className v) (roots : ∀ step, inj.Needs errand step → inj.Root step) :
  inj.Effect className v [] p (e.accesses v) q
  := by
  obtain ⟨accesses, effect, eq, -⟩ := h.affects cycles apart owns trivial fun step starts =>
    Trail.Walks.start (roots step (starts_dependency_iff.mp starts))
  rw [eq (by simp [Task.target?]), Expr.accessesAll_singleton] at effect
  exact effect

/-- The construction of an eager object keeps the account. -/
theorem Accounted.construct {e : Expr} (h : inj.Accounted className v p)
    (effect : inj.Effect className v [] p (e.accesses v) q) (value : .write ∉ e.accesses v) :
  inj.Accounted className v q
  where
  written settled := by
    by_cases settled₀ : p.Settled className
    · apply (h.written settled₀).mono effect.statements
    · obtain written | ⟨-, writes⟩ := effect.gain List.not_mem_nil settled₀ settled
      · exact written
      · cases value writes
  hoists broken := by
    by_cases silent : p.accesses v = []
    · obtain hoists | ⟨inner, owes, -, source, -⟩ := effect.debt silent broken
      · exact hoists
      · obtain settled | writes := source
        · cases owes.unwritten ((h.written settled).mono effect.statements)
        · cases value writes
    · apply (h.hoists (broken.of_prefix effect.statements silent)).mono effect.statements

/-- The answer to a request keeps the account, once every eager object has been constructed. -/
theorem Accounted.answer {request : Request} {e : Expr} (h : inj.Accounted className v p)
    (effect : inj.Effect className v [] p (e.accesses v) q)
    (statements : q.statements = p.statements) :
  inj.Accounted className v (q.emit (.answer request e))
  where
  written settled := by
    apply written_emit.mpr
    by_cases settled₀ : p.Settled className
    · left
      apply (h.written settled₀).mono effect.statements
    · obtain written | ⟨-, writes⟩ := effect.gain List.not_mem_nil settled₀ settled
      · left
        exact written
      · right
        exact writes
  hoists broken := by
    have grows := effect.statements.trans (statements_prefix_emit (.answer request e))
    by_cases silent : p.accesses v = []
    · -- the answer reads the variable first, so some statement has assigned it
      exfalso
      have silent' : q.accesses v = [] := by
        simpa [Progress.accesses, statements] using silent
      have first : (e.accesses v).head? = some .read := by
        simpa [Broken, silent'] using broken
      have written : q.Written v := by
        by_cases settled : p.Settled className
        · apply (h.written settled).mono effect.statements
        · apply effect.early List.not_mem_nil settled first
      rw [Written, silent'] at written
      cases written
    · apply (h.hoists (broken.of_prefix grows silent)).mono grows

/-- The constructions of eager objects keep the account. -/
theorem Serves.accounted_constructions (cycles : inj.options.detectCycles = true)
    (apart : inj.Apart v) (h : inj.Serves errands p q)
    (eager : ∀ errand ∈ errands, errand.Eager inj)
    (owns : q.Owns className v) (valid : p.Valid inj) (accounted : inj.Accounted className v p) :
  inj.Accounted className v q
  := by
  induction h with
  | nil => exact accounted
  | cons first rest ih =>
      obtain ⟨location, c, rfl, declared, scope⟩ := eager _ List.mem_cons_self
      have effect := effect_of_errand cycles apart first (owns.of_grows rest.grows) (by
        intro step needs
        obtain rfl := Option.some.inj needs
        exact .eager declared scope)
      obtain ⟨name, eq⟩ := first.name_of_eager valid scope
      obtain rfl := List.singleton_inj.mp eq
      apply ih (fun errand h => eager errand (List.mem_cons_of_mem _ h)) owns (first.valid valid)
      apply accounted.construct effect
      simp [Expr.accesses]

/-- The answers to requests keep the account. -/
theorem Serves.accounted_answers (cycles : inj.options.detectCycles = true) (apart : inj.Apart v)
    {requests : List Request} (h : inj.Serves (requests.map .answer) p q)
    (requested : ∀ request ∈ requests, request ∈ inj.entry.requests)
    (owns : q.Owns className v) (started : inj.Started p)
    (accounted : inj.Accounted className v p) :
  inj.Accounted className v q
  := by
  induction requests generalizing p with
  | nil =>
      cases h
      exact accounted
  | cons request requests ih =>
      cases h with
      | cons first rest =>
          have grows := (Errand.grows_finish _ _ _).trans rest.grows
          have effect := effect_of_errand cycles apart first (owns.of_grows grows) fun step needs =>
            root_of_requested (requested request List.mem_cons_self) needs
          apply ih rest (fun r h => requested r (List.mem_cons_of_mem _ h))
          · apply started.of_grows (first.grows.trans (Errand.grows_finish _ _ _))
          · apply accounted.answer effect (first.statements_eq started)

end Injector

namespace Catalog

open Injector Progress

/-- The default prefixes tell the variables of shared objects from those that hold an object while
its setters are called. -/
theorem temporaries_apart {options : Options}
    (singletons : options.singletonPrefix = "singletonInstance")
    (instances : options.instancePrefix = "instance$") (i n : Nat) :
  options.instancePrefix ++ toString n ≠ options.singletonPrefix ++ toString i
  := by
  intro eq
  rw [singletons, instances] at eq
  have letters := congrArg (·.toList.head?) eq
  simp at letters

section

variable [Dialect] {catalog : Catalog} {options : Options} {entry : EntryPoint}

/-- The statements of the plan are those that planning ends with. -/
theorem accesses_planEntry (catalog : Catalog) (options : Options) (entry : EntryPoint)
    (v : String) :
  (catalog.planEntry options entry).value.accesses v
    = (catalog.progress options entry).accesses v
  := rfl

/-- In the end the account of every variable that stands apart is kept. -/
theorem accounted_progress (cycles : options.detectCycles = true) {className v : String}
    (owns : (catalog.progress options entry).Owns className v)
    (apart : (catalog.injector options entry).Apart v) :
  (catalog.injector options entry).Accounted className v (catalog.progress options entry)
  := by
  have answers := serves_progress catalog entry cycles
  have accounted := (serves_constructed catalog entry cycles).accounted_constructions cycles apart
    (fun _ => eager_of_mem_constructions) (owns.of_grows answers.grows) (.start _)
    (accounted_start ..)
  apply answers.accounted_answers cycles apart (fun _ h => h) owns
    (started_constructed catalog entry cycles) accounted

variable (cycles : options.detectCycles = true)
  (singletons : options.singletonPrefix = "singletonInstance")
  (instances : options.instancePrefix = "instance$")
  {s : SingletonVariable} (hs : s ∈ (catalog.progress options entry).singletons)
  (handles : ∀ b ∈ (catalog.injector options entry).bindings, b.handle ≠ s.name)
  (values : ∀ b ∈ (catalog.injector options entry).bindings,
    ∀ e, b.binding.source = .value e → e.accesses s.name = [])

include cycles singletons instances hs handles values

/-- A variable that is read too early is read by the statement of an eager object that another
eager object needs. -/
theorem hoists_of_broken (broken : (catalog.progress options entry).Broken s.name) :
  (catalog.injector options entry).Hoists s.name
    (catalog.planEntry options entry).value.statements
  := by
  have valid := valid_progress catalog entry cycles
  apply (accounted_progress cycles (valid.owns hs) ⟨handles, values, _⟩).hoists broken
  intro n
  obtain ⟨i, name⟩ := valid.exists_name_eq hs
  rw [name]
  apply temporaries_apart singletons instances

/-- A plan assigns the variable of a shared object before it reads it, but for one case: an eager
object that another eager object needs reads a variable that the other one assigns. Then the
statement of the former is in front of that of the latter. -/
theorem reads_follow_writes_iff :
  ReadsFollowWrites ((catalog.planEntry options entry).value.accesses s.name)
    ↔ ¬ (catalog.injector options entry).Hoists s.name
      (catalog.planEntry options entry).value.statements
  := by
  constructor
  · intro follow hoists
    apply hoists.not_readsFollowWrites follow
  · intro none
    apply readsFollowWrites_iff.mpr
    intro broken
    apply none
    apply hoists_of_broken cycles singletons instances hs handles values broken

/-- Where no eager object needs another one, every variable is assigned before it is read. -/
theorem reads_follow_writes_of_independent
    (independent : ∀ outer inner, (catalog.injector options entry).IsEager outer →
      (catalog.injector options entry).IsEager inner →
      ¬ TransGen (catalog.injector options entry).Edge (.ofClass outer) (.ofClass inner)) :
  ReadsFollowWrites ((catalog.planEntry options entry).value.accesses s.name)
  := by
  apply readsFollowWrites_iff.mpr
  intro broken
  obtain ⟨_, inner, _, _, _, outer, _, _, _, -, -, -, -, eager, eager', needs⟩ :=
    hoists_of_broken cycles singletons instances hs handles values broken
  apply independent outer inner eager' eager needs

end

/-! ### An eager object inside another one -/

/-- Nothing is requested of what the module binds. -/
def nestedEntry : EntryPoint where
  name := "main"
  modules := ["M"]

/-- Two eager objects, one for the other, and an object that they share. -/
def nestedDeclarations : List Declaration :=
  [ .ofClass { name := "Outer", params := ["shared", "inner"] },
    .ofClass { name := "Inner", params := ["shared"] },
    .ofClass { name := "Shared" },
    .ofModule
      { name := "M"
        bindings :=
          [ { key := "outer", source := .type "Outer", scope := some .eagerSingleton },
            { key := "inner", source := .type "Inner", scope := some .eagerSingleton },
            { key := "shared", source := .type "Shared", scope := some .singleton } ] },
    .ofEntry nestedEntry ]

def nested : Catalog :=
  (Registry.addAll {} {} nestedDeclarations >>= Registry.close).value

theorem nestedEntry_mem :
  nestedEntry ∈ nested.entries
  := by
  decide +kernel

/-- The injector that serves them. -/
def nestedInjector : Injector where
  options := {}
  entry := nestedEntry
  modules := [{ name := "m", moduleName := "M", configure := "configure" }]
  bindings :=
    [ ⟨{ key := "outer", source := .type "Outer", scope := some .eagerSingleton, owner := "M" },
        "m"⟩,
      ⟨{ key := "inner", source := .type "Inner", scope := some .eagerSingleton, owner := "M" },
        "m"⟩,
      ⟨{ key := "shared", source := .type "Shared", scope := some .singleton, owner := "M" }, "m"⟩ ]
  interceptors := []
  classes :=
    [ ⟨{ name := "Outer", params := ["shared", "inner"] }, .eagerSingleton, [], false⟩,
      ⟨{ name := "Inner", params := ["shared"] }, .eagerSingleton, [], false⟩,
      ⟨{ name := "Shared" }, .singleton, [], false⟩ ]

theorem ofEntry_nested :
  ofEntry nested {} nestedEntry = nestedInjector
  := by
  rw [ofEntry_eq]
  decide +kernel

theorem injector_nested :
  nested.injector {} nestedEntry = nestedInjector
  := by
  rw [injector, ofEntry_nested]
  rfl

theorem progress_nested :
  nested.progress {} nestedEntry = (nestedInjector.serve.run {}).2
  := by
  rw [progress, injector_nested]

/-- The variable of the shared object is read by the statement of the inner object and assigned by
that of the outer one. -/
theorem accesses_nested :
  (nested.planEntry {} nestedEntry).value.accesses "singletonInstance1" = [.read, .write]
  := by
  rw [accesses_planEntry, progress_nested]
  decide +kernel

theorem shared_mem_nested :
  ⟨"Shared", "singletonInstance1", false⟩ ∈ (nested.progress {} nestedEntry).singletons
  := by
  rw [progress_nested]
  decide +kernel

theorem handles_nested :
  ∀ b ∈ (nested.injector {} nestedEntry).bindings, b.handle ≠ "singletonInstance1"
  := by
  rw [injector_nested]
  decide +kernel

theorem values_nested :
  ∀ b ∈ (nested.injector {} nestedEntry).bindings,
    ∀ e, b.binding.source = .value e → e.accesses "singletonInstance1" = []
  := by
  rw [injector_nested]
  simp [nestedInjector]

/-- The statement of the inner object reads the variable of the shared object, and nothing has
assigned it yet. -/
theorem not_reads_follow_writes_nested :
  ¬ ∀ (options : Options) (declarations : List Declaration) (entry : EntryPoint),
    let catalog := (Registry.addAll options {} declarations >>= Registry.close).value
    entry ∈ catalog.entries → options.detectCycles = true →
    options.singletonPrefix = "singletonInstance" → options.instancePrefix = "instance$" →
    ∀ s ∈ (catalog.progress options entry).singletons,
      (∀ b ∈ (catalog.injector options entry).bindings, b.handle ≠ s.name) →
      (∀ b ∈ (catalog.injector options entry).bindings,
        ∀ e, b.binding.source = .value e → e.accesses s.name = []) →
      ReadsFollowWrites ((catalog.planEntry options entry).value.accesses s.name)
  := by
  intro follows
  have follow : ReadsFollowWrites
      ((nested.planEntry {} nestedEntry).value.accesses "singletonInstance1") :=
    follows {} nestedDeclarations nestedEntry nestedEntry_mem rfl rfl rfl _ shared_mem_nested
      handles_nested values_nested
  rw [accesses_nested, readsFollowWrites_iff] at follow
  cases follow rfl

/-- The inner object is hoisted. -/
theorem hoists_nested :
  (nested.injector {} nestedEntry).Hoists "singletonInstance1"
    (nested.planEntry {} nestedEntry).value.statements
  := by
  by_contra none
  have follow := (reads_follow_writes_iff rfl rfl rfl shared_mem_nested handles_nested
    values_nested).mpr none
  rw [accesses_nested, readsFollowWrites_iff] at follow
  cases follow rfl

end Catalog

end Wiring
