import Wiring.Proofs.Expr.Likeness
import Wiring.Proofs.Injector.Twins

/-!
# Lockstep

Interception changes the classes that objects are constructed of and nothing else. Two catalogs that
differ only in the interceptors of their modules have plans with the same variables and the same
statements, up to the names of constructed classes, and the same failures are reported for both
(`planEntry_alike`).

The resolutions of twin injectors go hand in hand: whatever the one does the other one does, too,
and what has come of it is alike (`Progress.Alike`). The subclasses added so far may be different,
but no step of resolution looks at them.
-/

namespace Wiring

section

variable (same : String → String → Prop)

/-- The two progresses differ in the subclasses and in the names of constructed classes at most. -/
def Progress.Alike (p₁ p₂ : Progress) : Prop :=
  ∃ subclasses statements, p₂ = { p₁ with subclasses, statements }
    ∧ List.Forall₂ (PlanStatement.Alike same) p₁.statements.toList statements.toList

end

variable {same : String → String → Prop}

theorem Expr.Alike.assignedTo (target : Option String) {e₁ e₂ : Expr} (h : e₁.Alike same e₂) :
  (assignedTo target e₁).Alike same (assignedTo target e₂)
  := by
  cases target with
  | some target => exact .assign target h
  | none => exact h

namespace Progress.Alike

variable {p₁ p₂ : Progress}

theorem refl_start :
  Progress.Alike same {} {}
  := ⟨[], #[], rfl, .nil⟩

theorem singleton?_eq (h : p₁.Alike same p₂) (className : String) :
  p₂.singleton? className = p₁.singleton? className
  := by
  obtain ⟨_, _, rfl, -⟩ := h
  rfl

theorem nextSingleton_eq (h : p₁.Alike same p₂) (options : Options) :
  p₂.nextSingleton options = p₁.nextSingleton options
  := by
  obtain ⟨_, _, rfl, -⟩ := h
  rfl

theorem holder_eq (h : p₁.Alike same p₂) (options : Options) (target : Option String) :
  p₂.holder options target = p₁.holder options target
  := by
  obtain ⟨_, _, rfl, -⟩ := h
  rfl

theorem isDeferred_eq (h : p₁.Alike same p₂) :
  p₂.isDeferred = p₁.isDeferred
  := by
  obtain ⟨_, _, rfl, -⟩ := h
  rfl

theorem addSubclass (h : p₁.Alike same p₂) (inj₁ inj₂ : Injector) (c₁ c₂ : ManagedClass) :
  (p₁.addSubclass inj₁ c₁).Alike same (p₂.addSubclass inj₂ c₂)
  := by
  obtain ⟨subclasses, statements, rfl, alike⟩ := h
  unfold Progress.addSubclass
  split <;> split <;> exact ⟨_, _, rfl, alike⟩

/-- A change that neither looks at the subclasses and the statements nor changes them. -/
theorem change (h : p₁.Alike same p₂) (f : Progress → Progress)
    (frame : ∀ p subclasses statements, f { p with subclasses, statements }
      = { f p with subclasses, statements }) (fixed : ∀ p, (f p).statements = p.statements) :
  (f p₁).Alike same (f p₂)
  := by
  obtain ⟨subclasses, statements, rfl, alike⟩ := h
  refine ⟨subclasses, statements, frame p₁ subclasses statements, ?_⟩
  rw [fixed]
  exact alike

theorem takeSingleton (h : p₁.Alike same p₂) (options : Options) (className : String)
    (lazy : Bool) :
  (p₁.takeSingleton options className lazy).Alike same (p₂.takeSingleton options className lazy)
  := h.change _ (fun _ _ _ => rfl) fun _ => rfl

theorem setLazy (h : p₁.Alike same p₂) (className : String) (lazy : Bool) :
  (p₁.setLazy className lazy).Alike same (p₂.setLazy className lazy)
  := h.change _ (fun _ _ _ => rfl) fun _ => rfl

theorem hold (h : p₁.Alike same p₂) (options : Options) (target : Option String) :
  (p₁.hold options target).Alike same (p₂.hold options target)
  := by
  cases target with
  | some target => exact h
  | none => apply h.change (·.takeTemporary options) (fun _ _ _ => rfl) fun _ => rfl

theorem defer (h : p₁.Alike same p₂) :
  p₁.defer.Alike same p₂.defer
  := h.change _ (fun _ _ _ => rfl) fun _ => rfl

theorem resume (h : p₁.Alike same p₂) :
  p₁.resume.Alike same p₂.resume
  := h.change _ (fun _ _ _ => rfl) fun _ => rfl

theorem report (h : p₁.Alike same p₂) (problem : Problem) (location : Location) :
  (p₁.report problem location).Alike same (p₂.report problem location)
  := h.change _ (fun _ _ _ => rfl) fun _ => rfl

theorem emit (h : p₁.Alike same p₂) {s₁ s₂ : PlanStatement} (h' : s₁.Alike same s₂) :
  (p₁.emit s₁).Alike same (p₂.emit s₂)
  := by
  obtain ⟨subclasses, statements, rfl, alike⟩ := h
  refine ⟨subclasses, statements.push s₂, rfl, ?_⟩
  simp only [Progress.emit, Array.toList_push]
  apply List.rel_append alike (.cons h' .nil)

theorem finish (h : p₁.Alike same p₂) {e₁ e₂ : Expr} (h' : e₁.Alike same e₂) (errand : Errand)
    (inj : Injector) :
  (errand.finish e₁ p₁).Alike same ((errand.within inj).finish e₂ p₂)
  := by
  cases errand with
  | construct location c => exact h
  | answer request => apply h.emit (.answer request h')

end Progress.Alike

namespace Injector

theorem constructedName_eq_or (inj : Injector) (c : ManagedClass) :
  inj.constructedName c = c.name ∨ inj.constructedName c = inj.interceptingName c.name
  := by
  unfold constructedName
  split <;> simp

section

variable {inj₁ inj₂ : Injector} (twins : inj₁.Twins inj₂) (names : ∀ n, same n n)
  (stands : ∀ c, inj₁.class? c.name = some c →
    same (inj₁.constructedName c) (inj₂.constructedName (inj₂.counterpart c)))

include twins names stands

/-- Whatever the one of two twins resolves, the other one resolves alike. -/
theorem Resolves.alike {site : Site} {task : Task} {p₁ p₁' p₂ : Progress} {es₁ : List Expr}
    (h : inj₁.Resolves site task p₁ es₁ p₁') (similar : p₁.Alike same p₂) :
  ∃ es₂ p₂', inj₂.Resolves site (task.within inj₂) p₂ es₂ p₂'
    ∧ List.Forall₂ (Expr.Alike same) es₁ es₂ ∧ p₁'.Alike same p₂'
  := by
  -- the rule that the one resolution uses applies to the other one, since what decides between the
  -- rules is the same for both: the class but for its selected methods, and the variable held
  induction h generalizing p₂ with
  | @value site e p bound =>
      rw [← twins.bindings] at bound
      exact ⟨[e], p₂, .value bound, .cons (.refl names e) .nil, similar⟩
  | absent =>
      refine ⟨[.null], _, .absent, .cons .null .nil, ?_⟩
      apply similar.report
  | cyclicObject declared closes =>
      have declared' := twins.class?_counterpart declared
      rw [← twins.closesCycle_eq] at closes
      refine ⟨[.null], _, .cyclicObject declared' closes, .cons .null .nil, ?_⟩
      apply similar.report
  | held declared fresh held settled =>
      have declared' := twins.class?_counterpart declared
      rw [← twins.closesCycle_eq] at fresh
      rw [← similar.singleton?_eq] at held
      refine ⟨_, _, .held declared' fresh held settled, .cons (.name _) .nil, ?_⟩
      apply similar.addSubclass
  | @heldLazily site c p s e p' declared fresh held lazy _ ih =>
      have declared' := twins.class?_counterpart declared
      obtain ⟨_, p₂', creation, alike, similar'⟩ :=
        ih (similar.addSubclass inj₁ inj₂ c (inj₂.counterpart c))
      obtain _ | ⟨alike, ⟨⟩⟩ := alike
      rw [← twins.closesCycle_eq] at fresh
      rw [← similar.singleton?_eq] at held
      refine ⟨_, _, .heldLazily declared' fresh held lazy creation,
        .cons (.conditional (.name _) (.name _) alike) .nil, ?_⟩
      rw [similar'.isDeferred_eq]
      apply similar'.setLazy
  | @prototype site c p e p' declared fresh unheld scope _ ih =>
      have declared' := twins.class?_counterpart declared
      obtain ⟨_, p₂', creation, alike, similar'⟩ :=
        ih (similar.addSubclass inj₁ inj₂ c (inj₂.counterpart c))
      obtain _ | ⟨alike, ⟨⟩⟩ := alike
      rw [← twins.closesCycle_eq] at fresh
      rw [← similar.singleton?_eq] at unheld
      exact ⟨_, _, .prototype declared' fresh unheld scope creation, .cons alike .nil, similar'⟩
  | @singleton site c p e p' declared fresh unheld scope _ ih =>
      have declared' := twins.class?_counterpart declared
      obtain ⟨_, p₂', creation, alike, similar'⟩ :=
        ih ((similar.addSubclass inj₁ inj₂ c (inj₂.counterpart c)).takeSingleton _ _ _)
      obtain _ | ⟨alike, ⟨⟩⟩ := alike
      rw [← twins.closesCycle_eq] at fresh
      rw [← similar.singleton?_eq] at unheld
      rw [← similar.nextSingleton_eq, ← similar.isDeferred_eq, ← twins.options]
        at creation
      rw [← similar.nextSingleton_eq, ← twins.options]
      exact ⟨_, _, .singleton declared' fresh unheld scope creation,
        .cons (.conditional (.name _) (.name _) alike) .nil, similar'⟩
  | @eagerSingleton site c p e p' declared fresh unheld scope _ ih =>
      have declared' := twins.class?_counterpart declared
      obtain ⟨_, p₂', creation, alike, similar'⟩ :=
        ih ((similar.addSubclass inj₁ inj₂ c (inj₂.counterpart c)).takeSingleton _ _ _)
      obtain _ | ⟨alike, ⟨⟩⟩ := alike
      rw [← twins.closesCycle_eq] at fresh
      rw [← similar.singleton?_eq] at unheld
      rw [← similar.nextSingleton_eq, ← twins.options] at creation
      rw [← similar.nextSingleton_eq, ← twins.options]
      exact ⟨_, _, .eagerSingleton declared' fresh unheld scope creation, .cons (.name _) .nil,
        similar'.emit (.construct _ _ alike)⟩
  | provided _ ih =>
      obtain ⟨_, p₂', call, alike, similar'⟩ := ih similar
      obtain _ | ⟨alike, ⟨⟩⟩ := alike
      exact ⟨_, p₂', .provided call, .cons alike .nil, similar'⟩
  | providerFunction _ ih =>
      obtain ⟨_, p₂', call, alike, similar'⟩ := ih (similar.defer)
      obtain _ | ⟨alike, ⟨⟩⟩ := alike
      exact ⟨_, _, .providerFunction call, .cons (.function _ (.cons (.result alike) .nil)) .nil,
        similar'.resume⟩
  | cyclicCall bound source closes =>
      rw [← twins.binding?_eq] at bound
      rw [← twins.closesCycle_eq] at closes
      refine ⟨[.null], _, .cyclicCall bound source closes, .cons .null .nil, ?_⟩
      apply similar.report
  | call bound source fresh _ ih =>
      obtain ⟨args, p₂', parameters, alike, similar'⟩ := ih similar
      rw [← twins.binding?_eq] at bound
      rw [← twins.closesCycle_eq] at fresh
      exact ⟨_, p₂', .call bound source fresh parameters,
        .cons (.call (.member _ (.name _)) alike) .nil, similar'⟩
  | creation declared plain _ ih =>
      have declared' := twins.class?_counterpart declared
      obtain ⟨args, p₂', parameters, alike, similar'⟩ := ih similar
      exact ⟨_, p₂', .creation declared' plain parameters,
        .cons (.assignedTo _ (.new (stands _ declared) alike)) .nil, similar'⟩
  | creationWithSetters declared plain _ _ ih₁ ih₂ =>
      have declared' := twins.class?_counterpart declared
      obtain ⟨args, _, parameters, alike, similar'⟩ := ih₁ similar
      obtain ⟨calls, p₂', setters, alike', similar''⟩ := ih₂ (similar'.hold _ _)
      rw [← similar'.holder_eq, ← twins.options] at setters
      rw [← similar'.holder_eq, ← twins.options]
      refine ⟨_, p₂', .creationWithSetters declared' plain parameters setters, .cons ?_ .nil,
        similar''⟩
      apply Expr.Alike.sequence
      apply List.Forall₂.cons (.assign _ (.new (stands _ declared) alike))
      apply List.rel_append alike' (.cons (.name _) .nil)
  | noParameters => exact ⟨[], p₂, .noParameters, .nil, similar⟩
  | parameter _ _ ih₁ ih₂ =>
      obtain ⟨_, _, first, alike, similar'⟩ := ih₁ similar
      obtain ⟨es, p₂', rest, alike', similar''⟩ := ih₂ similar'
      obtain _ | ⟨alike, ⟨⟩⟩ := alike
      rw [Task.within, twins.within_parameter] at first
      exact ⟨_, p₂', .parameter first rest, .cons alike alike', similar''⟩
  | noSetters => exact ⟨[], p₂, .noSetters, .nil, similar⟩
  | setter _ _ ih₁ ih₂ =>
      obtain ⟨_, _, first, alike, similar'⟩ := ih₁ similar
      obtain ⟨es, p₂', rest, alike', similar''⟩ := ih₂ similar'
      exact ⟨_, p₂', .setter first rest, .cons (.call (.member _ (.name _)) alike) alike',
        similar''⟩

/-- Whatever errands the one of two twins is run for, the other one is run for them alike. -/
theorem Serves.alike {errands : List Errand} {p₁ q₁ p₂ : Progress}
    (h : inj₁.Serves errands p₁ q₁) (similar : p₁.Alike same p₂) :
  ∃ q₂, inj₂.Serves (errands.map (·.within inj₂)) p₂ q₂ ∧ q₁.Alike same q₂
  := by
  induction h generalizing p₂ with
  | nil => exact ⟨p₂, .nil, similar⟩
  | @cons errand errands p e q r first _ ih =>
      obtain ⟨_, p₂', first', alike, similar'⟩ := first.alike twins names stands similar
      obtain _ | ⟨alike, ⟨⟩⟩ := alike
      rw [Task.within, twins.dependency_within, ← Errand.location_within inj₂] at first'
      obtain ⟨q₂, rest, similar''⟩ := ih (similar'.finish alike errand inj₂)
      exact ⟨q₂, .cons first' rest, similar''⟩

end

end Injector

namespace Catalog

open Injector

/-- The names are the same, or each of them is that of one declared class or of the subclass that
intercepts it. -/
def Interchangeable (catalog : Catalog) (options : Options) (name₁ name₂ : String) : Prop :=
  name₁ = name₂ ∨ ∃ c ∈ catalog.classes,
    ∀ name ∈ [name₁, name₂], name = c.name ∨ name = options.subclassPrefix ++ identifierOf c.name

/-- Where cycles are looked for, catalogs that differ only in the interceptors of their modules have
plans with the same variables and with the same statements, node by node, up to the names of
constructed classes, of which one may be that of a class and the other one that of the subclass that
intercepts it. The same failed look-ups are reported for both. -/
theorem planEntry_alike [Dialect] (catalog₁ catalog₂ : Catalog) (options : Options)
    (entry : EntryPoint) (cycles : options.detectCycles = true)
    (differ : catalog₁.withoutInterceptors = catalog₂.withoutInterceptors) :
  let plan₁ := (catalog₁.planEntry options entry).value
  let plan₂ := (catalog₂.planEntry options entry).value
  plan₁.modules = plan₂.modules ∧ plan₁.declarations = plan₂.declarations
    ∧ List.Forall₂ (PlanStatement.Alike (catalog₁.Interchangeable options)) plan₁.statements
      plan₂.statements
    ∧ (catalog₁.planEntry options entry).reports.filter (·.problem.stage = .resolution)
      = (catalog₂.planEntry options entry).reports.filter (·.problem.stage = .resolution)
  := by
  intro plan₁ plan₂
  have twins : (catalog₁.injector options entry).Twins (catalog₂.injector options entry) :=
    twins_injector options entry differ
  have names (n : String) : catalog₁.Interchangeable options n n := .inl rfl
  have stands (c : ManagedClass)
      (declared : (catalog₁.injector options entry).class? c.name = some c) :
      catalog₁.Interchangeable options ((catalog₁.injector options entry).constructedName c)
        ((catalog₂.injector options entry).constructedName
          ((catalog₂.injector options entry).counterpart c)) := by
    right
    use c.decl, decl_mem_of_class? declared
    simp only [List.forall_mem_cons]
    exact ⟨constructedName_eq_or _ _, constructedName_eq_or _ _, by simp⟩
  obtain ⟨q, constructed, similar⟩ :=
    (serves_constructed catalog₁ entry cycles).alike twins names stands .refl_start
  rw [twins.map_constructions] at constructed
  obtain rfl := constructed.deterministic (serves_constructed catalog₂ entry cycles)
  obtain ⟨q, answered, similar⟩ :=
    (serves_progress catalog₁ entry cycles).alike twins names stands similar
  rw [List.map_map] at answered
  obtain rfl := answered.deterministic (serves_progress catalog₂ entry cycles)
  obtain ⟨subclasses, statements, eq, alike⟩ := similar
  refine ⟨twins.modules.symm, ?_, ?_, ?_⟩
  · rw [declarations_planEntry, declarations_planEntry, eq]
  · rw [statements_planEntry, statements_planEntry, eq]
    exact alike
  · rw [failures_planEntry, failures_planEntry, eq]

/-- A cook with a knife, and whoever looks over the shoulder of the cook. -/
def kitchen (interceptors : List Interceptor) : Catalog where
  classes :=
    [ { name := "Cook", params := ["knife"], methods := [{ name := "slice" }] },
      { name := "Knife" } ]
  modules :=
    [ { name := "Kitchen"
        bindings := [{ key := "knife", source := .type "Knife", scope := some .singleton }]
        interceptors } ]

/-- Looks over the shoulder of whoever slices. -/
def onlooker : Interceptor where
  classSelector := .any
  methodSelector := .like "sl*"
  body := "return invocation.proceed();"

/-- A cook is asked for. -/
def dinner : EntryPoint where
  name := "dinner"
  modules := ["Kitchen"]
  requests := [⟨.ofClass "Cook", {}⟩]

/-- Only one of the cooks is watched, but both get their knives in the same way. -/
theorem planEntry_alike_kitchen :
  ({} : Options).detectCycles = true
    ∧ (kitchen []).withoutInterceptors = (kitchen [onlooker]).withoutInterceptors
    ∧ ((kitchen []).planEntry {} dinner).value.subclasses = []
    ∧ ((kitchen [onlooker]).planEntry {} dinner).value.subclasses.map (·.base) = ["Cook"]
    ∧ List.Forall₂ (PlanStatement.Alike ((kitchen []).Interchangeable {}))
      ((kitchen []).planEntry {} dinner).value.statements
      ((kitchen [onlooker]).planEntry {} dinner).value.statements
  := by
  refine ⟨rfl, rfl, ?_, ?_, ?_⟩
  · rw [planEntry, ofEntry_eq]
    decide +kernel
  · rw [planEntry, ofEntry_eq]
    decide +kernel
  · apply (planEntry_alike (kitchen []) (kitchen [onlooker]) {} dinner rfl rfl).2.2.1

end Catalog

end Wiring
