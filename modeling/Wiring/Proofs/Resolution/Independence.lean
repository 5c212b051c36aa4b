import Wiring.Proofs.Resolution.Graph
import Wiring.Proofs.Resolution.Hoisting
import Wiring.Proofs.Resolution.Sharing

/-!
# Prototypes

A request for which only prototypes are constructed does not depend on what has been resolved
before. At any two points of a session it resolves to the same expression, but for the names of the
temporaries that objects with setters are held in, and what it does to the progress is the same, too
(`prototypes_alike`).

The rules of resolution look at the variables of classes only, and a prototype holds none. So from
the one of two points on, resolution goes the same way as from the other, and the number of a
temporary is the only trace of what was before (`Resolves.abreast`).
-/

namespace Wiring

open Relation

/-! ### Renaming -/

/-- The expressions are the same but for the names of variables, up to parts that are fixed. -/
inductive Expr.Renamed (same : String → String → Prop) (fixed : Expr → Prop) :
    Expr → Expr → Prop where
  | fixed {e} (h : fixed e) : Renamed same fixed e e
  | name {v₁ v₂} (names : same v₁ v₂) : Renamed same fixed (.name v₁) (.name v₂)
  | member {object₁ object₂ property} (object : Renamed same fixed object₁ object₂) :
    Renamed same fixed (.member object₁ property) (.member object₂ property)
  | new {className args₁ args₂} (args : List.Forall₂ (Renamed same fixed) args₁ args₂) :
    Renamed same fixed (.new className args₁) (.new className args₂)
  | call {callee₁ callee₂ args₁ args₂} (callee : Renamed same fixed callee₁ callee₂)
    (args : List.Forall₂ (Renamed same fixed) args₁ args₂) :
    Renamed same fixed (.call callee₁ args₁) (.call callee₂ args₂)
  | assign {v₁ v₂ value₁ value₂} (names : same v₁ v₂) (value : Renamed same fixed value₁ value₂) :
    Renamed same fixed (.assign v₁ value₁) (.assign v₂ value₂)
  | sequence {items₁ items₂} (items : List.Forall₂ (Renamed same fixed) items₁ items₂) :
    Renamed same fixed (.sequence items₁) (.sequence items₂)
  | delayed {value₁ value₂} (value : Renamed same fixed value₁ value₂) :
    Renamed same fixed value₁.delayed value₂.delayed

section

variable {same : String → String → Prop} {fixed : Expr → Prop}

mutual

/-- Where names may not differ, nothing else does. -/
theorem Expr.Renamed.eq (names : ∀ v₁ v₂, same v₁ v₂ → v₁ = v₂) : {e₁ e₂ : Expr} →
    Expr.Renamed same fixed e₁ e₂ →
  e₁ = e₂
  | _, _, .fixed _ => rfl
  | _, _, .name h => by rw [names _ _ h]
  | _, _, .member object => by rw [Expr.Renamed.eq names object]
  | _, _, .new args => by rw [Expr.Renamed.eq_all names args]
  | _, _, .call callee args => by
      rw [Expr.Renamed.eq names callee, Expr.Renamed.eq_all names args]
  | _, _, .assign h value => by rw [names _ _ h, Expr.Renamed.eq names value]
  | _, _, .sequence items => by rw [Expr.Renamed.eq_all names items]
  | _, _, .delayed value => by rw [Expr.Renamed.eq names value]

theorem Expr.Renamed.eq_all (names : ∀ v₁ v₂, same v₁ v₂ → v₁ = v₂) : {es₁ es₂ : List Expr} →
    List.Forall₂ (Expr.Renamed same fixed) es₁ es₂ →
  es₁ = es₂
  | _, _, .nil => rfl
  | _, _, .cons first rest => by
      rw [Expr.Renamed.eq names first, Expr.Renamed.eq_all names rest]

end

end

/-- What a number of temporaries are called at the one of two points, and at the other. -/
def Options.Corresponds (options : Options) (i₁ i₂ number : Nat) (v₁ v₂ : String) : Prop :=
  ∃ n < number, v₁ = options.instancePrefix ++ toString (i₁ + n)
    ∧ v₂ = options.instancePrefix ++ toString (i₂ + n)

/-- Different names correspond to different ones. -/
theorem Options.Corresponds.eq_iff {options : Options} {i₁ i₂ number : Nat}
    {v₁ v₂ w₁ w₂ : String} (h : options.Corresponds i₁ i₂ number v₁ v₂)
    (h' : options.Corresponds i₁ i₂ number w₁ w₂) :
  v₁ = w₁ ↔ v₂ = w₂
  := by
  obtain ⟨m, -, rfl, rfl⟩ := h
  obtain ⟨n, -, rfl, rfl⟩ := h'
  constructor <;> intro eq <;> rw [Nat.add_left_cancel (Progress.Valid.number_inj eq)]

/-! ### What is added -/

namespace Progress

/-- The temporaries that have been taken have lower numbers. -/
theorem not_mem_temporaryNames {options : Options} {p : Progress} (n : Nat) :
  options.instancePrefix ++ toString (p.temporaries + n) ∉ p.temporaryNames options
  := by
  intro h
  obtain ⟨m, lt, eq⟩ := List.mem_map.mp h
  have := Valid.number_inj eq
  have := List.mem_range.mp lt
  omega

/-- Nothing but temporaries and reports has been added between the two progresses, and perhaps
subclasses. -/
structure Adds (options : Options) (number : Nat) (reports : List Diagnostic) (p p' : Progress) :
    Prop where
  singletons : p'.singletons = p.singletons
  statements : p'.statements = p.statements
  temporaries : p'.temporaries = p.temporaries + number
  declarations : p'.declarations.toList = p.declarations.toList
    ++ (List.range number).map fun n => options.instancePrefix ++ toString (p.temporaries + n)
  reports : p'.reports.toList = p.reports.toList ++ reports

variable {options : Options} {number number' : Nat} {reports reports' : List Diagnostic}
  {p q r p' : Progress}

namespace Adds

theorem refl (options : Options) (p : Progress) :
  p.Adds options 0 [] p
  := by
  constructor <;> simp

theorem trans (h : p.Adds options number reports q) (h' : q.Adds options number' reports' r) :
  p.Adds options (number + number') (reports ++ reports') r
  where
  singletons := h'.singletons.trans h.singletons
  statements := h'.statements.trans h.statements
  temporaries := by rw [h'.temporaries, h.temporaries, Nat.add_assoc]
  declarations := by
    rw [h'.declarations, h.declarations, h.temporaries, List.range_add, List.map_append,
      List.map_map, List.append_assoc]
    simp [Function.comp_def, Nat.add_assoc]
  reports := by rw [h'.reports, h.reports, List.append_assoc]

theorem addSubclass (inj : Injector) (c : ManagedClass) (p : Progress) :
  p.Adds options 0 [] (p.addSubclass inj c)
  := by
  constructor <;> simp

theorem report (options : Options) (problem : Problem) (location : Location) (p : Progress) :
  p.Adds options 0 [⟨problem, location⟩] (p.report problem location)
  := by
  constructor <;> simp [Progress.report]

theorem takeTemporary (options : Options) (p : Progress) :
  p.Adds options 1 [] (p.takeTemporary options)
  := by
  constructor <;> simp [Progress.takeTemporary, nextTemporary]

theorem function (h : p.defer.Adds options number reports p') :
  p.Adds options number reports p'.resume
  where
  singletons := h.singletons
  statements := h.statements
  temporaries := h.temporaries
  declarations := h.declarations
  reports := h.reports

end Adds

/-- At both points the variables are valid, and as many temporaries have been taken since there
were so many. -/
structure Abreast (inj : Injector) (i₁ i₂ : Nat) (p₁ p₂ : Progress) : Prop where
  valid₁ : p₁.Valid inj
  valid₂ : p₂.Valid inj
  taken : ∃ k, p₁.temporaries = i₁ + k ∧ p₂.temporaries = i₂ + k

namespace Abreast

variable {inj : Injector} {i₁ i₂ : Nat} {p₁ p₂ p₁' p₂' : Progress} {c : ManagedClass}

theorem addSubclass (h : Abreast inj i₁ i₂ p₁ p₂) (c : ManagedClass) :
  Abreast inj i₁ i₂ (p₁.addSubclass inj c) (p₂.addSubclass inj c)
  where
  valid₁ := h.valid₁.addSubclass c
  valid₂ := h.valid₂.addSubclass c
  taken := by simpa using h.taken

theorem defer (h : Abreast inj i₁ i₂ p₁ p₂) :
  Abreast inj i₁ i₂ p₁.defer p₂.defer
  where
  valid₁ := h.valid₁.defer
  valid₂ := h.valid₂.defer
  taken := h.taken

theorem takeTemporary (h : Abreast inj i₁ i₂ p₁ p₂) :
  Abreast inj i₁ i₂ (p₁.takeTemporary inj.options) (p₂.takeTemporary inj.options)
  where
  valid₁ := h.valid₁.hold none
  valid₂ := h.valid₂.hold none
  taken := by
    obtain ⟨k, taken₁, taken₂⟩ := h.taken
    use k + 1
    simp [Progress.takeTemporary, taken₁, taken₂, Nat.add_assoc]

/-- As many temporaries may be added at both points. -/
theorem adds (h : Abreast inj i₁ i₂ p₁ p₂) {number : Nat} {reports : List Diagnostic}
    (adds₁ : p₁.Adds inj.options number reports p₁')
    (adds₂ : p₂.Adds inj.options number reports p₂') (valid₁ : p₁'.Valid inj)
    (valid₂ : p₂'.Valid inj) :
  Abreast inj i₁ i₂ p₁' p₂'
  where
  valid₁ := valid₁
  valid₂ := valid₂
  taken := by
    obtain ⟨k, taken₁, taken₂⟩ := h.taken
    use k + number
    rw [adds₁.temporaries, adds₂.temporaries, taken₁, taken₂, Nat.add_assoc, Nat.add_assoc]
    trivial

/-- The next temporaries correspond. -/
theorem corresponds (h : Abreast inj i₁ i₂ p₁ p₂) {number : Nat}
    (room : p₁.temporaries < i₁ + number) :
  inj.options.Corresponds i₁ i₂ number (p₁.nextTemporary inj.options)
    (p₂.nextTemporary inj.options)
  := by
  obtain ⟨k, taken₁, taken₂⟩ := h.taken
  use k, by omega
  rw [nextTemporary, nextTemporary, taken₁, taken₂]
  trivial

end Abreast

end Progress

/-- The tasks are the same but for the names of variables. -/
inductive Task.Renamed (same : String → String → Prop) : Task → Task → Prop where
  | dependency {d} : Renamed same (.dependency d) (.dependency d)
  | parameters {names} : Renamed same (.parameters names) (.parameters names)
  | call {b params} : Renamed same (.call b params) (.call b params)
  | creation {c} : Renamed same (.creation c none) (.creation c none)
  | setters {c names v₁ v₂} (holders : same v₁ v₂) :
    Renamed same (.setters c v₁ names) (.setters c v₂ names)

namespace Injector

open Progress

variable {inj : Injector} {site : Site} {task task' : Task} {p p' p₁ p₂ p₁' : Progress}
  {es es₁ : List Expr} {step next : Step} {i₁ i₂ number : Nat}

/-- What resolution gives and no temporary is in: nothing, a bound value, or the module of a
provider. -/
def Fixed (inj : Injector) (e : Expr) : Prop :=
  e = .null ∨ (∃ b ∈ inj.bindings, b.binding.source = .value e)
    ∨ ∃ b ∈ inj.bindings, e = .name b.handle

/-- All classes that the step needs have the property. -/
def NeedsOnly (inj : Injector) (P : ManagedClass → Prop) (step : Step) : Prop :=
  ∀ className c, ReflTransGen inj.Edge step (.ofClass className) →
    inj.class? className = some c → P c

theorem NeedsOnly.of_edge {P : ManagedClass → Prop} (h : inj.NeedsOnly P step)
    (edge : inj.Edge step next) :
  inj.NeedsOnly P next
  := by
  intro className c path
  apply h className c (.head edge path)

/-- A step in a set that no edge leads out of needs nothing but the classes in the set. -/
theorem needsOnly_of_closed {P : ManagedClass → Prop} (inside : Step → Bool)
    (closed : inj.edgesPass (fun step next => inside step → inside next) = true)
    (all : ∀ c ∈ inj.classes, inside (.ofClass c.name) = true → P c) (h : inside step = true) :
  inj.NeedsOnly P step
  := by
  intro className c path declared
  have reached : ∀ {next}, ReflTransGen inj.Edge step next → inside next = true := by
    intro next path
    induction path with
    | refl => exact h
    | tail _ edge ih => exact of_decide_eq_true (test_of_edge closed edge) ih
  obtain rfl := name_of_class? declared
  apply all c (List.mem_of_find?_eq_some declared) (reached path)

/-! ### Derivations -/

theorem Resolves.temporaries_le (h : inj.Resolves site task p es p') :
  p.temporaries ≤ p'.temporaries
  := by
  induction h with
  | held _ _ _ _ => simp
  | heldLazily _ _ _ _ _ ih => simpa [setLazy] using ih
  | prototype _ _ _ _ _ ih => simpa using ih
  | singleton _ _ _ _ _ ih => simpa [takeSingleton] using ih
  | eagerSingleton _ _ _ _ _ ih => simpa [takeSingleton, emit] using ih
  | provided _ ih => exact ih
  | providerFunction _ ih => exact ih
  | call _ _ _ _ ih => exact ih
  | creation _ _ _ ih => exact ih
  | @creationWithSetters _ _ target _ _ p₁ _ _ _ _ _ _ ih₁ ih₂ =>
      have taken : p₁.temporaries ≤ (p₁.hold inj.options target).temporaries := by
        cases target <;> simp [hold, takeTemporary]
      apply (ih₁.trans taken).trans ih₂
  | parameter _ _ ih₁ ih₂ => apply ih₁.trans ih₂
  | setter _ _ ih₁ ih₂ => apply ih₁.trans ih₂
  | _ => apply Nat.le_refl

/-- The task is resolved from the second point on as the first resolution was from its own: the
expressions differ in the names of temporaries only, and as much is added. -/
def Repeats (inj : Injector) (same : String → String → Prop) (site : Site) (task : Task)
    (p₁ : Progress) (es₁ : List Expr) (p₁' p₂ : Progress) : Prop :=
  ∃ es₂ p₂', inj.Resolves site task p₂ es₂ p₂'
    ∧ List.Forall₂ (Expr.Renamed same inj.Fixed) es₁ es₂
    ∧ ∃ number reports, p₁.Adds inj.options number reports p₁'
      ∧ p₂.Adds inj.options number reports p₂'

section

variable {same : String → String → Prop}

theorem Repeats.fixed {e : Expr} (again : inj.Resolves site task p₂ [e] p₂) (h : inj.Fixed e) :
  inj.Repeats same site task p₁ [e] p₁ p₂
  := ⟨_, _, again, .cons (.fixed h) .nil, 0, [], .refl _ _, .refl _ _⟩

theorem Repeats.nothing (again : inj.Resolves site task p₂ [] p₂) :
  inj.Repeats same site task p₁ [] p₁ p₂
  := ⟨_, _, again, .nil, 0, [], .refl _ _, .refl _ _⟩

/-- The same is reported again. -/
theorem Repeats.report {problem : Problem}
    (again : inj.Resolves site task p₂ [.null] (p₂.report problem site.location)) :
  inj.Repeats same site task p₁ [.null] (p₁.report problem site.location) p₂
  := ⟨_, _, again, .cons (.fixed (.inl rfl)) .nil, 0, _, .report _ _ _ _, .report _ _ _ _⟩

end

/-- Where all that is needed are prototypes, two resolutions that start abreast go the same way. -/
theorem Resolves.abreast (h : inj.Resolves site task p₁ es₁ p₁')
    (tasks : Task.Renamed (inj.options.Corresponds i₁ i₂ number) task task')
    (abreast : Abreast inj i₁ i₂ p₁ p₂) (room : p₁'.temporaries ≤ i₁ + number)
    (only : ∀ step, task.Starts inj step → inj.NeedsOnly (·.scope = .prototype) step) :
  inj.Repeats (inj.options.Corresponds i₁ i₂ number) site task' p₁ es₁ p₁' p₂
  := by
  induction h generalizing task' p₂ with
  | value bound =>
      cases tasks
      apply Repeats.fixed (.value bound) (.inr (.inl bound))
  | absent =>
      cases tasks
      apply Repeats.report .absent
  | cyclicObject declared closes =>
      cases tasks
      apply Repeats.report (.cyclicObject declared closes)
  | held declared _ held _ =>
      have scope := only _ rfl _ _ .refl declared
      cases (abreast.valid₁.singleton?_prototype declared scope).symm.trans held
  | heldLazily declared _ held _ _ _ =>
      have scope := only _ rfl _ _ .refl declared
      cases (abreast.valid₁.singleton?_prototype declared scope).symm.trans held
  | @prototype site c p₁ e p₁' declared fresh _ scope _ ih =>
      cases tasks
      obtain ⟨es₂, p₂', creation, renamed, count, reports, adds₁, adds₂⟩ :=
        ih .creation (abreast.addSubclass c) room only
      obtain _ | ⟨renamed, ⟨⟩⟩ := renamed
      have unheld := abreast.valid₂.singleton?_prototype declared scope
      refine ⟨_, p₂', .prototype declared fresh unheld scope creation, .cons renamed .nil,
        0 + count, [] ++ reports, ?_, ?_⟩
      · apply (Adds.addSubclass inj c p₁).trans adds₁
      · apply (Adds.addSubclass inj c p₂).trans adds₂
  | singleton declared _ _ scope _ _ => cases scope.symm.trans (only _ rfl _ _ .refl declared)
  | eagerSingleton declared _ _ scope _ _ => cases scope.symm.trans (only _ rfl _ _ .refl declared)
  | provided _ ih =>
      cases tasks
      obtain ⟨es₂, p₂', call, renamed, added⟩ := ih .call abreast room only
      obtain _ | ⟨renamed, ⟨⟩⟩ := renamed
      exact ⟨_, p₂', .provided call, .cons renamed .nil, added⟩
  | providerFunction _ ih =>
      cases tasks
      obtain ⟨es₂, p₂', call, renamed, count, reports, adds₁, adds₂⟩ :=
        ih .call abreast.defer room only
      obtain _ | ⟨renamed, ⟨⟩⟩ := renamed
      exact ⟨_, _, .providerFunction call, .cons (.delayed renamed) .nil, count, reports,
        adds₁.function, adds₂.function⟩
  | cyclicCall bound source closes =>
      cases tasks
      apply Repeats.report (.cyclicCall bound source closes)
  | @call _ b _ _ _ _ bound source fresh _ ih =>
      cases tasks
      have handle : inj.Fixed (.name b.handle) :=
        .inr (.inr ⟨b, List.mem_of_find?_eq_some bound, rfl⟩)
      obtain ⟨args₂, p₂', parameters, renamed, added⟩ := ih .parameters abreast room
        fun step starts => (only _ rfl).of_edge (edge_of_provider bound source starts)
      exact ⟨_, p₂', .call bound source fresh parameters,
        .cons (.call (.member (.fixed handle)) renamed) .nil, added⟩
  | creation declared plain _ ih =>
      cases tasks
      obtain ⟨args₂, p₂', parameters, renamed, added⟩ := ih .parameters abreast room
        fun step starts => (only _ rfl).of_edge (edge_of_parameters declared starts)
      exact ⟨_, p₂', .creation declared plain parameters, .cons (.new renamed) .nil, added⟩
  | @creationWithSetters site c target p₁ args₁ q₁ calls₁ p₁' declared plain parameters setters ih₁
      ih₂ =>
      cases tasks
      have taken : q₁.temporaries + 1 ≤ p₁'.temporaries := setters.temporaries_le
      obtain ⟨args₂, q₂, parameters₂, renamed, count, reports, adds₁, adds₂⟩ :=
        ih₁ .parameters abreast (by omega)
          fun step starts => (only _ rfl).of_edge (edge_of_parameters declared starts)
      have between := abreast.adds adds₁ adds₂ (parameters.valid abreast.valid₁)
        (parameters₂.valid abreast.valid₂)
      -- the temporaries that hold the objects are those of the same number
      have holders : inj.options.Corresponds i₁ i₂ number (q₁.nextTemporary inj.options)
          (q₂.nextTemporary inj.options) := between.corresponds (by omega)
      obtain ⟨calls₂, p₂', setters₂, renamed', count', reports', adds₁', adds₂'⟩ :=
        ih₂ (.setters holders) between.takeTemporary room
          fun step starts => (only _ rfl).of_edge (edge_of_setters declared starts)
      refine ⟨_, p₂', .creationWithSetters declared plain parameters₂ setters₂, .cons ?_ .nil,
        count + (1 + count'), reports ++ ([] ++ reports'), ?_, ?_⟩
      · apply Expr.Renamed.sequence
        apply List.Forall₂.cons (.assign holders (.new renamed))
        apply List.rel_append renamed' (.cons (.name holders) .nil)
      · apply adds₁.trans
        apply (Adds.takeTemporary inj.options q₁).trans adds₁'
      · apply adds₂.trans
        apply (Adds.takeTemporary inj.options q₂).trans adds₂'
  | noParameters =>
      cases tasks
      apply Repeats.nothing .noParameters
  | parameter first rest ih₁ ih₂ =>
      cases tasks
      have taken := rest.temporaries_le
      obtain ⟨only₁, only₂⟩ := forall_starts_parameters_cons.mp only
      obtain ⟨es₂, q₂, first₂, renamed, count, reports, adds₁, adds₂⟩ :=
        ih₁ .dependency abreast (by omega) only₁
      obtain _ | ⟨renamed, ⟨⟩⟩ := renamed
      have between := abreast.adds adds₁ adds₂ (first.valid abreast.valid₁)
        (first₂.valid abreast.valid₂)
      obtain ⟨es₂, p₂', rest₂, renamed', count', reports', adds₁', adds₂'⟩ :=
        ih₂ .parameters between room only₂
      exact ⟨_, p₂', .parameter first₂ rest₂, .cons renamed renamed', _, _, adds₁.trans adds₁',
        adds₂.trans adds₂'⟩
  | noSetters =>
      cases tasks
      apply Repeats.nothing .noSetters
  | setter first rest ih₁ ih₂ =>
      cases tasks with
      | setters holders =>
          have taken := rest.temporaries_le
          obtain ⟨only₁, only₂⟩ := forall_starts_setters_cons.mp only
          obtain ⟨args₂, q₂, first₂, renamed, count, reports, adds₁, adds₂⟩ :=
            ih₁ .parameters abreast (by omega) only₁
          have between := abreast.adds adds₁ adds₂ (first.valid abreast.valid₁)
            (first₂.valid abreast.valid₂)
          obtain ⟨calls₂, p₂', rest₂, renamed', count', reports', adds₁', adds₂'⟩ :=
            ih₂ (.setters holders) between room only₂
          exact ⟨_, p₂', .setter first₂ rest₂,
            .cons (.call (.member (.name holders)) renamed) renamed', _, _, adds₁.trans adds₁',
            adds₂.trans adds₂'⟩

/-- Where nothing that is needed has setters, no temporary is taken. -/
theorem Resolves.temporaries_eq (h : inj.Resolves site task p es p')
    (only : ∀ step, task.Starts inj step → inj.NeedsOnly (·.decl.setters = []) step) :
  p'.temporaries = p.temporaries
  := by
  induction h with
  | held _ _ _ _ => simp
  | heldLazily _ _ _ _ _ ih => simpa [setLazy] using ih only
  | prototype _ _ _ _ _ ih => simpa using ih only
  | singleton _ _ _ _ _ ih => simpa [takeSingleton] using ih only
  | eagerSingleton _ _ _ _ _ ih => simpa [takeSingleton, emit] using ih only
  | provided _ ih => exact ih only
  | providerFunction _ ih => exact ih only
  | call bound source _ _ ih =>
      exact ih fun step starts => (only _ rfl).of_edge (edge_of_provider bound source starts)
  | creation declared _ _ ih =>
      exact ih fun step starts => (only _ rfl).of_edge (edge_of_parameters declared starts)
  | creationWithSetters declared plain _ _ _ _ => cases plain (only _ rfl _ _ .refl declared)
  | parameter _ _ ih₁ ih₂ =>
      obtain ⟨only₁, only₂⟩ := forall_starts_parameters_cons.mp only
      apply (ih₂ only₂).trans (ih₁ only₁)
  | setter _ _ ih₁ ih₂ =>
      obtain ⟨only₁, only₂⟩ := forall_starts_setters_cons.mp only
      apply (ih₂ only₂).trans (ih₁ only₁)
  | _ => rfl

end Injector

namespace Session

open Injector

/-- At any point of its session the variables of an injector are valid. -/
theorem valid_performAll {inj : Injector} (cycles : inj.options.detectCycles = true)
    (calls : List Call) :
  ((start inj).performAll calls).progress.Valid inj
  := by
  have injector : ((start inj).performAll calls).injector = inj :=
    ((regular_start cycles).extends_performAll calls).injector
  have valid := ((regular_start cycles).performAll calls).valid
  rwa [injector] at valid

/-- Where cycles are looked for, and all classes that a request needs are prototypes, resolving it
at two points of the session of an injector gives the same expression, but for the names of
temporaries. At both points as many temporaries are taken, which is none if no class has setters,
they are new, and nothing else is added but subclasses and the same reports. -/
theorem prototypes_alike (inj : Injector) (cycles : inj.options.detectCycles = true)
    (request : Request)
    (only : ∀ step, (inj.requested request.wanted).step? = some step →
      inj.NeedsOnly (·.scope = .prototype) step)
    (calls₁ calls₂ : List Call) :
  let p₁ := ((start inj).performAll calls₁).progress
  let p₂ := ((start inj).performAll calls₂).progress
  let (e₁, p₁') := (inj.resolve request).run p₁
  let (e₂, p₂') := (inj.resolve request).run p₂
  ∃ number reports,
    let same := inj.options.Corresponds p₁.temporaries p₂.temporaries number
    e₁.Renamed same inj.Fixed e₂
      ∧ p₁.Adds inj.options number reports p₁' ∧ p₂.Adds inj.options number reports p₂'
      ∧ (∀ v₁ v₂, same v₁ v₂ →
        v₁ ∉ p₁.temporaryNames inj.options ∧ v₂ ∉ p₂.temporaryNames inj.options)
      ∧ (∀ v₁ v₂ w₁ w₂, same v₁ v₂ → same w₁ w₂ → (v₁ = w₁ ↔ v₂ = w₂))
      ∧ ((∀ step, (inj.requested request.wanted).step? = some step →
        inj.NeedsOnly (·.decl.setters = []) step) → number = 0 ∧ e₁ = e₂)
  := by
  intro p₁ p₂
  have first := resolves_resolve cycles request p₁
  have second := resolves_resolve cycles request p₂
  generalize (inj.resolve request).run p₁ = r₁ at first
  generalize (inj.resolve request).run p₂ = r₂ at second
  obtain ⟨e₁, p₁'⟩ := r₁
  obtain ⟨e₂, p₂'⟩ := r₂
  obtain ⟨number, room⟩ := Nat.exists_eq_add_of_le first.temporaries_le
  obtain ⟨es, q, again, renamed, count, reports, adds₁, adds₂⟩ := first.abreast .dependency
    ⟨valid_performAll cycles calls₁, valid_performAll cycles calls₂, 0, rfl, rfl⟩ room.le
    fun step starts => only step (starts_dependency_iff.mp starts)
  obtain ⟨rfl, rfl⟩ := again.deterministic second
  obtain _ | ⟨renamed, -⟩ := renamed
  obtain rfl : number = count := Nat.add_left_cancel (room.symm.trans adds₁.temporaries)
  refine ⟨number, reports, renamed, adds₁, adds₂, ?_, ?_, ?_⟩
  · rintro _ _ ⟨n, -, rfl, rfl⟩
    exact ⟨Progress.not_mem_temporaryNames _, Progress.not_mem_temporaryNames _⟩
  · rintro _ _ _ _ h h'
    exact h.eq_iff h'
  · intro plain
    have none : p₁'.temporaries = p₁.temporaries :=
      first.temporaries_eq fun step starts => plain step (starts_dependency_iff.mp starts)
    obtain rfl : number = 0 := Nat.add_eq_left.mp (room.symm.trans none)
    use rfl
    apply renamed.eq
    rintro _ _ ⟨n, lt, -⟩
    cases lt

/-- A letter that is sealed when it has been written, in an envelope for which the letter is needed.
The desk is shared and needs letters, too. -/
def stationery : Injector where
  options := {}
  entry := { name := "main", modules := ["Stationery"] }
  modules := []
  bindings :=
    [ ⟨{ key := "desk", source := .type "Desk", scope := some .eagerSingleton }, "stationery"⟩,
      ⟨{ key := "letter", source := .type "Letter" }, "stationery"⟩,
      ⟨{ key := "envelope", source := .type "Envelope" }, "stationery"⟩,
      ⟨{ key := "seal", source := .value (.str "wax") }, "stationery"⟩ ]
  interceptors := []
  classes :=
    [ ⟨{ name := "Desk", params := ["letter", "letter"] }, .eagerSingleton, [], false⟩,
      ⟨{ name := "Letter"
         params := ["envelope"]
         methods := [{ name := "close", params := ["seal"] }]
         setters := ["close"] }, .prototype, [], false⟩,
      ⟨{ name := "Envelope", params := ["letter"] }, .prototype, [], false⟩ ]

/-- Whatever has been resolved before, a letter takes one temporary, and the cycle is reported. -/
theorem prototypes_alike_stationery :
  stationery.options.detectCycles = true
    ∧ (∀ step, (stationery.requested (.ofKey "letter")).step? = some step →
      stationery.NeedsOnly (·.scope = .prototype) step)
    ∧ ∀ calls,
      let p := ((start stationery).performAll calls).progress
      let (e, p') := (stationery.resolve ⟨.ofKey "letter", {}⟩).run p
      Expr.Renamed (stationery.options.Corresponds 0 p.temporaries 1) stationery.Fixed
          (.sequence
            [ .assign "instance$0" (.new "Letter" [.new "Envelope" [.null]]),
              .call (.member (.name "instance$0") "close") [.str "wax"],
              .name "instance$0" ])
          e
        ∧ p.Adds stationery.options 1 [⟨.cyclicBinding "Letter -> Envelope -> Letter", {}⟩] p'
  := by
  have only : ∀ step, (stationery.requested (.ofKey "letter")).step? = some step →
      stationery.NeedsOnly (·.scope = .prototype) step := by
    intro step starts
    have eq : (stationery.requested (.ofKey "letter")).step? = some (.ofClass "Letter") := by
      decide +kernel
    obtain rfl := Option.some.inj (eq.symm.trans starts)
    refine needsOnly_of_closed (· ≠ .ofClass "Desk") ?_ ?_ ?_ <;> decide +kernel
  use rfl, only
  intro calls
  obtain ⟨number, reports, renamed, adds, adds', -⟩ :=
    prototypes_alike stationery rfl ⟨.ofKey "letter", {}⟩ only [] calls
  have value : ((stationery.resolve ⟨.ofKey "letter", {}⟩).run {}).1 = .sequence
      [ .assign "instance$0" (.new "Letter" [.new "Envelope" [.null]]),
        .call (.member (.name "instance$0") "close") [.str "wax"],
        .name "instance$0" ] := by
    decide +kernel
  have taken : ((stationery.resolve ⟨.ofKey "letter", {}⟩).run {}).2.temporaries = 1 := by
    decide +kernel
  have reported : ((stationery.resolve ⟨.ofKey "letter", {}⟩).run {}).2.reports.toList
      = [⟨.cyclicBinding "Letter -> Envelope -> Letter", {}⟩] := by
    decide +kernel
  obtain rfl : 1 = number := taken.symm.trans (adds.temporaries.trans (Nat.zero_add _))
  obtain rfl := reported.symm.trans adds.reports
  rw [← value]
  exact ⟨renamed, adds'⟩

end Session

end Wiring
