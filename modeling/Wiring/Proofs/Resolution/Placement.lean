import Wiring.Proofs.Expr.Outer
import Wiring.Proofs.Resolution.Affects
import Wiring.Proofs.Resolution.Functions
import Wiring.Proofs.Resolution.Layout

/-!
# Where shared objects are constructed

The variable of a shared object is lazy as long as only functions assign it that are called later.
Then no assignment to it stands outside of functions, and when it is settled a single one does. But
an eager object that is first used inside such a function is constructed in a statement of its own,
which leaves the function, while what is constructed for it is taken to be deferred still. So its
statement may assign a variable outside of functions that stays lazy, and another statement may do
it again (`constructed_once_iff`).
-/

namespace Wiring

open Relation

/-! ### Where the variable is assigned -/

namespace Progress

/-- Between the two progresses a statement has been emitted that constructs an eager object at a far
step and assigns the variable outside of functions. -/
def Hastens (inj : Injector) (v : String) (far : Step → Prop) (p p' : Progress) : Prop :=
  ∃ inner t e, .construct inner t e ∈ p'.statements.toList.drop p.statements.size
    ∧ inj.IsEager inner ∧ far (.ofClass inner) ∧ Expr.outerAssignments v [e] ≠ 0

/-- Between the two progresses the variable has been assigned outside of functions as often as it
has been given to be assigned there or has been settled. -/
def Locates (inj : Injector) (className v : String) (far : Step → Prop) :
    Nat → Nat → Progress → Progress → Prop :=
  Counts (outerAssignments v) (settledCount className) (Hastens inj v far)

variable {inj : Injector} {className v : String} {far : Step → Prop} {p p₁ p' q q' : Progress}
  {given given' made made' : Nat}

theorem spreads_hastens (inj : Injector) (v : String) (far : Step → Prop) :
  Spreads (Hastens inj v far)
  where
  before := by
    rintro p q r grows ⟨inner, t, e, member, rest⟩
    refine ⟨inner, t, e, ?_, rest⟩
    have le : p.statements.size ≤ q.statements.size := by
      simpa using grows.statements.length_le
    exact (List.drop_subset_drop_left _ le) member
  after := by
    rintro p q r grows ⟨inner, t, e, member, rest⟩
    exact ⟨inner, t, e, (grows.statements.drop _).subset member, rest⟩

namespace Locates

theorem trans (h₁ : Locates inj className v far given made p p₁)
    (h₂ : Locates inj className v far given' made' p₁ p') (grows₁ : p.Grows p₁)
    (grows₂ : p₁.Grows p') :
  Locates inj className v far (given + given') (made + made') p p'
  := Counts.trans h₁ h₂ (spreads_hastens inj v far) grows₁ grows₂

/-- Nothing but the statements and the variable of the class matters. -/
theorem congr (h : Locates inj className v far given made q q')
    (statements : q.statements = p.statements) (statements' : p'.statements = q'.statements)
    (eq : made' + p.settledCount className + (given + q'.settledCount className)
      = made + q.settledCount className + (given' + p'.settledCount className)) :
  Locates inj className v far given' made' p p'
  := by
  apply Counts.congr h
  · unfold Hastens
    rw [statements, statements']
    exact id
  · rw [outerAssignments_eq_of_statements_eq statements,
      outerAssignments_eq_of_statements_eq statements']
    omega

theorem refl (p : Progress) :
  Locates inj className v far 0 0 p p
  := Counts.refl p

theorem report (problem : Problem) (location : Location) (p : Progress) :
  Locates inj className v far 0 0 p (p.report problem location)
  := (refl p).congr rfl rfl rfl

/-- An expression that is evaluated at once may be kept in a statement instead. -/
theorem emit {s : PlanStatement}
    (h : Locates inj className v far given (Expr.outerAssignments v [s.value]) p p') :
  Locates inj className v far given 0 p (p'.emit s)
  := by
  apply Counts.congr h
  · apply (spreads_hastens inj v far).after (grows_emit s p')
  · have same : (p'.emit s).settledCount className = p'.settledCount className := rfl
    rw [outerAssignments_emit, same]
    omega

/-- Inside a function the statement of an eager object comes too soon. -/
theorem hasten {c : ManagedClass} {t : String} {e : Expr}
    (h : Locates inj className v far given 0 p p') (grows : p.Grows p')
    (eager : inj.IsEager c.name) (isFar : far (.ofClass c.name)) :
  Locates inj className v far given 0 p (p'.emit (.construct c.name t e))
  := by
  obtain ⟨more, count, excused⟩ := h
  use more + Expr.outerAssignments v [e]
  constructor
  · have same : (p'.emit (.construct c.name t e)).settledCount className
        = p'.settledCount className := rfl
    rw [outerAssignments_emit, same, PlanStatement.value]
    omega
  · intro ne
    by_cases none : more = 0
    · refine ⟨c.name, t, e, ?_, eager, isFar, by omega⟩
      have le : p.statements.size ≤ p'.statements.size := by
        simpa using grows.statements.length_le
      simp [Progress.emit, List.drop_append_of_le_length, le]
    · exact (spreads_hastens inj v far).after (grows_emit _ _) (excused none)

end Locates

end Progress

namespace Injector

open Progress

variable {inj : Injector} {site : Site} {task : Task} {near far : Step → Prop}
  {p p₁ p' q : Progress} {es : List Expr} {e : Expr} {className v : String} {c : ManagedClass}
  {s : SingletonVariable} {errands : List Errand}

theorem AssignFree.outerAssignments_eq (values : inj.AssignFree)
    (bound : ∃ b ∈ inj.bindings, b.binding.source = .value e) :
  Expr.outerAssignments v [e] = 0
  := by
  apply Nat.le_zero.mp
  rw [← values.assignments_eq bound]
  apply Expr.outerAssignments_le

/-- A later use of a lazy object. Its variable is settled if it is assigned outside of functions. -/
theorem locates_heldLazily (cycles : inj.options.detectCycles = true)
    (held : p.singleton? c.name = some s) (lazy : s.lazy = true) (owns : p.Owns className v)
    (creation : inj.Resolves site (.creation c (some s.name)) (p.addSubclass inj c) [e] p')
    (h : Locates inj className v far ((p.addSubclass inj c).evaluated ([s.name].count v))
      ((p.addSubclass inj c).evaluated (Expr.outerAssignments v [e])) (p.addSubclass inj c) p') :
  Locates inj className v far 0 (p.evaluated (Expr.outerAssignments v [.once s.name e])) p
    (p'.setLazy c.name p'.isDeferred)
  := by
  apply h.congr (by simp) (by simp)
  have same (n : Nat) : (p.addSubclass inj c).evaluated n = p.evaluated n :=
    evaluated_eq_of_deferred_eq (by simp) n
  have before : (p.addSubclass inj c).settledCount className = p.settledCount className :=
    settledCount_eq_of_singleton?_eq (by simp)
  rw [same, same, before, Expr.outerAssignments_once]
  by_cases eq : c.name = className
  · obtain rfl := eq
    have frame : p'.singleton? c.name = some s := by
      rw [creation.singleton?_eq cycles (by simp [Task.entered]), singleton?_addSubclass, held]
    have after : (p'.setLazy c.name p'.isDeferred).settledCount c.name = p.evaluated 1 := by
      have held' : (p'.setLazy c.name p'.isDeferred).singleton? c.name
          = some { s with lazy := p'.isDeferred } := by
        rw [singleton?_setLazy, frame, Option.map_some, if_pos (className_of_singleton? held)]
      have same' : p'.isDeferred = p.isDeferred := by simp [isDeferred, creation.deferred_eq]
      apply settledCount_of_deferred held' same'
    have given : [s.name].count v = 1 := by simp [(owns _ s held).mpr rfl]
    rw [after, given, settledCount_of_held frame, settledCount_of_held held, lazy]
    simp only [if_true]
    omega
  · have ne : className ≠ c.name := fun h => eq h.symm
    have after : (p'.setLazy c.name p'.isDeferred).settledCount className
        = p'.settledCount className :=
      settledCount_eq_of_singleton?_eq (singleton?_setLazy_of_ne ne)
    have given : [s.name].count v = 0 := by simp [(owns _ s held).not.mpr ne.symm]
    rw [after, given, evaluated_zero]

/-- The first use of an object that is shared. -/
theorem locates_singleton (cycles : inj.options.detectCycles = true)
    (unheld : p.singleton? c.name = none) (owns : p'.Owns className v)
    (creation : inj.Resolves site (.creation c (some (p.nextSingleton inj.options)))
      ((p.addSubclass inj c).takeSingleton inj.options c.name p.isDeferred) [e] p')
    (h : Locates inj className v far (p.evaluated ([p.nextSingleton inj.options].count v))
      (p.evaluated (Expr.outerAssignments v [e]))
      ((p.addSubclass inj c).takeSingleton inj.options c.name p.isDeferred) p') :
  Locates inj className v far 0
    (p.evaluated (Expr.outerAssignments v [.once (p.nextSingleton inj.options) e])) p p'
  := by
  have own := owns_takeSingleton unheld creation owns
  have frame := singleton?_of_taken cycles unheld creation
  apply h.congr (by simp) rfl
  rw [Expr.outerAssignments_once]
  by_cases eq : c.name = className
  · obtain rfl := eq
    have unheld' : (p.addSubclass inj c).singleton? c.name = none := by simpa using unheld
    have taken := @singleton?_takeSingleton_self _ inj.options c.name p.isDeferred unheld'
    have given : [p.nextSingleton inj.options].count v = 1 := by simp [own.mpr rfl]
    rw [settledCount_of_deferred frame rfl, settledCount_of_deferred taken rfl,
      settledCount_of_unheld unheld, given]
    omega
  · have ne : className ≠ c.name := fun h => eq h.symm
    have given : [p.nextSingleton inj.options].count v = 0 := by simp [own.not.mpr eq]
    have before : ((p.addSubclass inj c).takeSingleton inj.options c.name
        p.isDeferred).settledCount className = p.settledCount className :=
      settledCount_eq_of_singleton?_eq
        (by rw [singleton?_takeSingleton_of_ne ne, singleton?_addSubclass])
    rw [before, given, evaluated_zero]

/-- The construction of an eager object, which leaves the functions around it. -/
theorem locates_eagerSingleton (ne : className ≠ c.name) (eager : inj.IsEager c.name)
    (isFar : p.isDeferred = true → far (.ofClass c.name)) (unheld : p.singleton? c.name = none)
    (owns : p'.Owns className v)
    (creation : inj.Resolves site (.creation c (some (p.nextSingleton inj.options)))
      ((p.addSubclass inj c).takeSingleton inj.options c.name false) [e] p')
    (h : Locates inj className v far (p.evaluated ([p.nextSingleton inj.options].count v))
      (p.evaluated (Expr.outerAssignments v [e]))
      ((p.addSubclass inj c).takeSingleton inj.options c.name false) p') :
  Locates inj className v far 0 0 p
    (p'.emit (.construct c.name (p.nextSingleton inj.options) e))
  := by
  have own := owns_takeSingleton unheld creation owns
  have given : [p.nextSingleton inj.options].count v = 0 := by simp [own.not.mpr ne.symm]
  have before : ((p.addSubclass inj c).takeSingleton inj.options c.name false).settledCount
      className = p.settledCount className :=
    settledCount_eq_of_singleton?_eq
      (by rw [singleton?_takeSingleton_of_ne ne, singleton?_addSubclass])
  have h : Locates inj className v far 0 (p.evaluated (Expr.outerAssignments v [e])) p p' := by
    apply h.congr (by simp) rfl
    rw [before, given, evaluated_zero]
  by_cases deferred : p.isDeferred = true
  · have grows : p.Grows p' := (grows_addSubclass inj c p).trans
      ((grows_takeSingleton _ _ _ _).trans creation.grows)
    rw [evaluated, if_pos deferred] at h
    exact h.hasten grows eager (isFar deferred)
  · rw [evaluated, if_neg deferred] at h
    exact h.emit

/-- No temporary is the variable, so only a variable that was given is. -/
theorem count_holder (temporaries : ∀ n : Nat, inj.options.instancePrefix ++ toString n ≠ v)
    (target : Option String) (p : Progress) :
  [p.holder inj.options target].count v = target.toList.count v
  := by
  cases target with
  | some target => rfl
  | none =>
      have ne : p.nextTemporary inj.options ≠ v := temporaries p.temporaries
      simp [holder, ne]

section

variable (cycles : inj.options.detectCycles = true) (values : inj.AssignFree)
  (temporaries : ∀ n : Nat, inj.options.instancePrefix ++ toString n ≠ v)
  (shared : ∃ c, inj.class? className = some c ∧ c.scope = .singleton)
  (closed : inj.Closed near far)

include cycles values temporaries shared closed

/-- The variable of a shared object is settled when it is assigned outside of functions, but for the
statements of eager objects that come too soon. -/
theorem Resolves.locates (h : inj.Resolves site task p es p') (owns : p'.Owns className v)
    (within : task.Within inj near far p) :
  Locates inj className v far (p.evaluated (given v task))
    (p.evaluated (Expr.outerAssignments v es)) p p'
  := by
  induction h with
  | value bound =>
      simp only [given, evaluated_zero, values.outerAssignments_eq bound]
      apply Locates.refl
  | absent =>
      simp only [given, evaluated_zero, Expr.outerAssignments_null]
      apply Locates.report
  | cyclicObject _ _ =>
      simp only [given, evaluated_zero, Expr.outerAssignments_null]
      apply Locates.report
  | @held _ c p _ _ _ _ _ =>
      simp only [given, evaluated_zero, Expr.outerAssignments_name]
      apply (Locates.refl _).congr rfl (by simp)
      have same : (p.addSubclass inj c).settledCount className = p.settledCount className :=
        settledCount_eq_of_singleton?_eq (by simp)
      rw [same]
  | @heldLazily _ c p s e p' _ _ held lazy creation ih =>
      have owns' : p'.Owns className v := owns.of_grows (grows_setLazy _ _ _)
      have owns₀ : p.Owns className v :=
        owns'.of_grows ((grows_addSubclass _ _ _).trans creation.grows)
      simp only [given, evaluated_zero]
      apply locates_heldLazily cycles held lazy owns₀ creation
      exact ih owns' ((within.creation _).of_deferred_eq (by simp))
  | @prototype _ c p _ p' _ _ _ _ _ ih =>
      have h := ih owns ((within.creation _).of_deferred_eq (by simp))
      have same (n : Nat) : (p.addSubclass inj c).evaluated n = p.evaluated n :=
        evaluated_eq_of_deferred_eq (by simp) n
      have before : (p.addSubclass inj c).settledCount className = p.settledCount className :=
        settledCount_eq_of_singleton?_eq (by simp)
      simp only [given, Option.toList_none, List.count_nil, evaluated_zero, same] at h ⊢
      apply h.congr (by simp) rfl
      rw [before]
  | @singleton _ c p e p' _ _ unheld _ creation ih =>
      have h := ih owns ((within.creation _).of_deferred_eq (by simp))
      have same (n : Nat) : ((p.addSubclass inj c).takeSingleton inj.options c.name
          p.isDeferred).evaluated n = p.evaluated n := evaluated_eq_of_deferred_eq (by simp) n
      simp only [given, Option.toList_some, evaluated_zero, same] at h ⊢
      exact locates_singleton cycles unheld owns creation h
  | @eagerSingleton _ c p e p' declared _ unheld scope creation ih =>
      have owns' := owns.of_grows (grows_emit _ _)
      have h := ih owns' ((within.creation _).of_deferred_eq (by simp))
      have same (n : Nat) : ((p.addSubclass inj c).takeSingleton inj.options c.name
          false).evaluated n = p.evaluated n := evaluated_eq_of_deferred_eq (by simp) n
      have ne : className ≠ c.name := by
        rintro rfl
        obtain ⟨c', declared', scope'⟩ := shared
        obtain rfl := Option.some.inj (declared.symm.trans declared')
        cases scope.symm.trans scope'
      simp only [given, Option.toList_some, evaluated_zero, same, Expr.outerAssignments_name] at h ⊢
      apply locates_eagerSingleton ne ⟨c, declared, scope⟩ _ unheld owns' creation h
      intro deferred
      exact within.inside deferred _ rfl
  | provided _ ih => exact ih owns within.call
  | @providerFunction _ _ _ p _ _ _ ih =>
      have h := ih owns within.function
      have none (n : Nat) : p.defer.evaluated n = 0 := by
        simp [evaluated, isDeferred, defer]
      simp only [given, evaluated_zero, none, Expr.outerAssignments_delayed] at h ⊢
      exact h.congr rfl rfl rfl
  | cyclicCall _ _ _ =>
      simp only [given, evaluated_zero, Expr.outerAssignments_null]
      apply Locates.report
  | call bound source _ _ ih =>
      rw [Expr.outerAssignments_callMember]
      exact ih owns (within.arguments closed bound source)
  | creation declared _ _ ih =>
      have h := ih owns (within.parameters closed declared)
      simp only [given, evaluated_zero, Expr.outerAssignments_assignedTo, evaluated_add] at h ⊢
      apply h.congr rfl rfl
      omega
  | @creationWithSetters _ c target p args p₁ calls p' declared _ parameters setters ih₁ ih₂ =>
      have grows : p₁.Grows p' := (grows_hold _ _ _).trans setters.grows
      have deferred : (p₁.hold inj.options target).deferred = p.deferred := by
        rw [deferred_hold, parameters.deferred_eq]
      have same (n : Nat) : (p₁.hold inj.options target).evaluated n = p.evaluated n :=
        evaluated_eq_of_deferred_eq deferred n
      have between : (p₁.hold inj.options target).settledCount className
          = p₁.settledCount className := settledCount_eq_of_singleton?_eq (by simp)
      have h₁ := ih₁ (owns.of_grows grows) (within.parameters closed declared)
      have h₂ := ih₂ owns ((within.setters closed declared).of_deferred_eq deferred)
      simp only [given, evaluated_zero, same] at h₁ h₂ ⊢
      have h₂ : Locates inj className v far 0 (p.evaluated (Expr.outerAssignments v calls)) p₁
          p' := by
        apply h₂.congr (by simp) rfl
        rw [between]
      apply (h₁.trans h₂ parameters.grows grows).congr rfl rfl
      rw [List.cons_append, Expr.outerAssignments_withSetters, evaluated_add, evaluated_add,
        count_holder temporaries]
      omega
  | noParameters =>
      simp only [given, evaluated_zero, Expr.outerAssignments_nil]
      apply Locates.refl
  | @parameter _ _ _ p _ p₁ _ _ first rest ih₁ ih₂ =>
      have same (n : Nat) : p₁.evaluated n = p.evaluated n :=
        evaluated_eq_of_deferred_eq first.deferred_eq n
      have h₁ := ih₁ (owns.of_grows rest.grows) within.head
      have h₂ := ih₂ owns (within.tail.of_deferred_eq first.deferred_eq)
      rw [Expr.outerAssignments_cons, evaluated_add]
      simp only [given, evaluated_zero, same] at h₁ h₂ ⊢
      exact h₁.trans h₂ first.grows rest.grows
  | noSetters =>
      simp only [given, evaluated_zero, Expr.outerAssignments_nil]
      apply Locates.refl
  | @setter _ _ _ _ _ p _ p₁ _ _ first rest ih₁ ih₂ =>
      have same (n : Nat) : p₁.evaluated n = p.evaluated n :=
        evaluated_eq_of_deferred_eq first.deferred_eq n
      have h₁ := ih₁ (owns.of_grows rest.grows) within.headSetter
      have h₂ := ih₂ owns (within.tailSetters.of_deferred_eq first.deferred_eq)
      rw [Expr.outerAssignments_cons, Expr.outerAssignments_callMember, evaluated_add]
      simp only [given, evaluated_zero, same] at h₁ h₂ ⊢
      exact h₁.trans h₂ first.grows rest.grows

end

/-- What a request asks for is not a function. -/
theorem not_delays_errand (errand : Errand) (step : Step) :
  ¬ (Task.dependency (errand.dependency inj)).Delays inj step
  := by
  cases errand with
  | construct location c => exact id
  | answer request =>
      unfold Errand.dependency requested Injector.bound objectOf
      repeat' split
      all_goals exact id

section

variable (cycles : inj.options.detectCycles = true) (values : inj.AssignFree)
  (temporaries : ∀ n : Nat, inj.options.instancePrefix ++ toString n ≠ v)
  (shared : ∃ c, inj.class? className = some c ∧ c.scope = .singleton)
  (closed : inj.Closed near far)

include cycles values temporaries shared closed

/-- While errands are run, the variable is settled when it is assigned outside of functions, but for
the statements of eager objects that come too soon. -/
theorem Serves.locates (h : inj.Serves errands p q) (valid : p.Valid inj)
    (outermost : p.deferred = 0) (owns : q.Owns className v)
    (sound : ∀ errand ∈ errands, errand.Sound inj)
    (starts : ∀ errand ∈ errands, ∀ step, inj.Needs errand step → near step) :
  Locates inj className v far 0 0 p q
  := by
  apply h.counts (P := fun p => p.Valid inj ∧ p.deferred = 0) (spreads_hastens inj v far)
    ⟨valid, outermost⟩
  rintro errand member p e p' ⟨valid, outermost⟩ grows first
  have shallow : p.isDeferred = false := by simp [isDeferred, outermost]
  have within : (Task.dependency (errand.dependency inj)).Within inj near far p :=
    { starts := fun step h => starts errand member step (starts_dependency_iff.mp h)
      inside := fun deferred => by simp [shallow] at deferred
      delays := fun step delays => absurd delays (not_delays_errand errand step) }
  have owns' : p'.Owns className v := owns.of_grows ((errand.grows_finish e p').trans grows)
  have located := first.locates cycles values temporaries shared closed owns' within
  simp only [given, evaluated, shallow] at located
  have deferred : (errand.finish e p').deferred = 0 := by
    have same : (errand.finish e p').deferred = p'.deferred := by cases errand <;> rfl
    rw [same, first.deferred_eq, outermost]
  refine ⟨⟨Errand.valid_finish (first.valid valid), deferred⟩, ?_⟩
  cases errand with
  | construct location c =>
      obtain ⟨name, eq⟩ := first.name_of_eager valid (sound _ member location c rfl).2
      obtain rfl := List.singleton_inj.mp eq
      exact located
  | answer request => exact Locates.emit located

end

end Injector

/-! ### Whole plans -/

namespace Injector

variable {inj : Injector} {xs ys : List Errand} {p q r : Progress}

/-- Errands leave as many functions as they enter. -/
theorem Serves.deferred_eq (h : inj.Serves xs p q) :
  q.deferred = p.deferred
  := by
  induction h with
  | nil => rfl
  | @cons errand _ _ _ _ _ first _ ih =>
      rw [ih, ← first.deferred_eq]
      cases errand <;> rfl

/-- An eager object that another one needs from inside a function is constructed by a statement
that assigns the variable outside of functions. The variable stays lazy nevertheless, or another
assignment stands outside of functions too. -/
def Leaks (inj : Injector) (s : SingletonVariable) (plan : Plan) : Prop :=
  (∃ inner t e, .construct inner t e ∈ plan.statements
    ∧ inj.IsEager inner
    ∧ (∃ outer, inj.IsEager outer ∧ inj.NeedsLater (.ofClass outer) (.ofClass inner))
    ∧ Expr.outerAssignments s.name [e] ≠ 0)
  ∧ (s.lazy = true ∨ 2 ≤ plan.outer.countP (Expr.assigns s.name))

end Injector

namespace Catalog

open Injector Progress

section

variable [Dialect] {catalog : Catalog} {options : Options} {entry : EntryPoint}
  {s : SingletonVariable}

/-- The construction of a shared object stands outside of functions at most once, and otherwise
inside functions that call providers. Between errands its variable is lazy exactly if what has been
emitted so far assigns it inside functions only. -/
structure ConstructedOnce (catalog : Catalog) (options : Options) (entry : EntryPoint)
    (s : SingletonVariable) : Prop where
  once : (catalog.planEntry options entry).value.outer.countP (Expr.assigns s.name) ≤ 1
  inside : ∀ params body, .function params body ∈ (catalog.planEntry options entry).value.nodes →
    ∀ value, .assign s.name value ∈ Stmt.visitedAll body →
      (catalog.injector options entry).CallsProvider (.function params body)
  lazy : ∀ done rest p t, (catalog.injector options entry).errands = done ++ rest →
    (catalog.injector options entry).Serves done {} p → p.singleton? s.className = some t →
    (t.lazy = true ↔ p.outerAssignments s.name = 0)

variable (cycles : options.detectCycles = true) (apart : options.PrefixesApart)
  (values : (catalog.injector options entry).AssignFree)
  (hs : s ∈ (catalog.progress options entry).singletons)
  (shared : ∃ c, (catalog.injector options entry).class? s.className = some c
    ∧ c.scope = .singleton)

include cycles apart hs

theorem temporaries_ne (n : Nat) :
  (catalog.injector options entry).options.instancePrefix ++ toString n ≠ s.name
  := by
  obtain ⟨i, name⟩ := (valid_progress catalog entry cycles).exists_name_eq hs
  rw [name]
  exact (apart.ne i n).symm

include values shared

/-- Between any two points the variable is settled when it is assigned outside of functions, or it
is assigned there too often. -/
theorem locates_between {xs ys : List Errand} {p q : Progress}
    (all : (catalog.injector options entry).errands = xs ++ ys)
    (before : (catalog.injector options entry).Serves xs {} p)
    (after : (catalog.injector options entry).Serves ys p q) :
  Locates (catalog.injector options entry) s.className s.name (fun _ => True) 0 0 {} p
    ∧ Locates (catalog.injector options entry) s.className s.name (fun _ => True) 0 0 p q
  := by
  have done : (catalog.injector options entry).Serves (catalog.injector options entry).errands {}
      (catalog.progress options entry) := serves_errands catalog entry cycles
  have sound : ∀ errand ∈ (catalog.injector options entry).errands,
      errand.Sound (catalog.injector options entry) := fun _ => sound_of_mem_errands
  rw [all] at done sound
  obtain rfl := done.deterministic (before.append after)
  have owns := (valid_progress catalog entry cycles).owns hs
  have temporaries := temporaries_ne cycles apart hs
  constructor
  · exact before.locates cycles values temporaries shared (closed_all _) (.start _) rfl
      (owns.of_grows after.grows)
      (fun errand member => sound errand (List.mem_append_left _ member)) fun _ _ _ _ => trivial
  · exact after.locates cycles values temporaries shared (closed_all _) (before.valid (.start _))
      before.deferred_eq owns
      (fun errand member => sound errand (List.mem_append_right _ member)) fun _ _ _ _ => trivial

/-- In the end the variable is assigned outside of functions as often as it is settled, but for a
leak. -/
theorem exists_excess :
  ∃ excess, (catalog.progress options entry).outerAssignments s.name
      = (catalog.progress options entry).settledCount s.className + excess
    ∧ (excess ≠ 0 → Hastens (catalog.injector options entry) s.name
      (fun step => ∃ outer, (catalog.injector options entry).IsEager outer
        ∧ (catalog.injector options entry).NeedsLater (.ofClass outer) step) {}
      (catalog.progress options entry))
  := by
  have constructions := serves_constructed catalog entry cycles
  have answers := serves_progress catalog entry cycles
  have owns := (valid_progress catalog entry cycles).owns hs
  have temporaries := temporaries_ne cycles apart hs
  -- eager objects are constructed first
  obtain ⟨early, count₁, excused₁⟩ := constructions.locates cycles values temporaries shared
    (closed_eager _) (.start _) rfl (owns.of_grows answers.grows)
    (fun errand member => sound_of_mem_errands (List.mem_append_left _ member))
    (by
      intro errand member step needs
      obtain ⟨location, c, rfl, declared, scope⟩ := eager_of_mem_constructions member
      obtain rfl := Option.some.inj needs
      exact ⟨c.name, ⟨c, declared, scope⟩, .refl⟩)
  -- after that there are only answers, which construct no eager object
  obtain ⟨late, count₂, excused₂⟩ := answers.locates cycles values temporaries shared
    (closed_all _) (constructions.valid (.start _)) constructions.deferred_eq owns
    (fun errand member => sound_of_mem_errands (List.mem_append_right _ member))
    fun _ _ _ _ => trivial
  have none : late = 0 := by
    by_contra some
    obtain ⟨inner, t, e, member, -⟩ := excused₂ some
    obtain ⟨new, statements, answered⟩ := answers.statements_answers
      (started_constructed catalog entry cycles)
    rw [statements, List.drop_append_of_le_length (by simp), ← Array.length_toList,
      List.drop_length, List.nil_append] at member
    obtain ⟨request, value, eq⟩ := answer_of_forall₂ answered _ member
    cases eq
  use early
  constructor
  · have start : ({} : Progress).outerAssignments s.name = 0
        ∧ ({} : Progress).settledCount s.className = 0 := ⟨rfl, rfl⟩
    simp only [start] at count₁
    omega
  · intro ne
    exact (spreads_hastens _ _ _).after answers.grows (excused₁ ne)

/-- Without a leak the shared object is constructed once. -/
theorem constructedOnce_of_not_leaks
    (tight : ¬ (catalog.injector options entry).Leaks s
      (catalog.planEntry options entry).value) :
  ConstructedOnce catalog options entry s
  := by
  have serves := serves_errands catalog entry cycles
  have held := (valid_progress catalog entry cycles).singleton?_of_mem hs
  have settled := settledCount_of_held held
  obtain ⟨excess, total, excused⟩ := exists_excess cycles apart values hs shared
  have none : excess = 0 := by
    by_contra some
    obtain ⟨inner, t, e, member, eager, needs, assigned⟩ := excused some
    apply tight
    refine ⟨⟨inner, t, e, List.mem_of_mem_drop member, eager, needs, assigned⟩, ?_⟩
    by_cases lazy : s.lazy = true
    · exact .inl lazy
    · right
      rw [settled, if_neg lazy] at total
      exact le_of_le_of_eq (by omega) total.symm
  constructor
  · apply le_of_eq_of_le total
    rw [settled]
    split <;> omega
  · intro params body member value inside
    obtain before | explains := serves.explains member
    · cases before
    · exact values.callsProvider explains inside
  · intro done rest p t all before held'
    obtain ⟨q, before', after⟩ := (all ▸ serves).split
    obtain rfl := before.deterministic before'
    obtain ⟨⟨early, count₁, -⟩, ⟨late, count₂, -⟩⟩ :=
      locates_between cycles apart values hs shared all before after
    have start : ({} : Progress).outerAssignments s.name = 0
        ∧ ({} : Progress).settledCount s.className = 0 := ⟨rfl, rfl⟩
    simp only [start] at count₁
    -- nothing is in excess at the end, so nothing was before
    have balanced : p.outerAssignments s.name = p.settledCount s.className := by omega
    rw [balanced, settledCount_of_held held']
    cases t.lazy <;> simp

/-- The construction of a shared object stands outside of functions at most once, and its variable
is lazy just as long as it does not, but for one case: an eager object that another eager object
needs from inside a function. Its statement is outside of the function, and what is constructed for
it counts as if it were not. -/
theorem constructed_once_iff :
  ConstructedOnce catalog options entry s
    ↔ ¬ (catalog.injector options entry).Leaks s (catalog.planEntry options entry).value
  := by
  constructor
  · rintro once ⟨⟨inner, t, e, member, -, -, assigned⟩, lazy | twice⟩
    · have held := (valid_progress catalog entry cycles).singleton?_of_mem hs
      have none := (once.lazy _ [] _ s (List.append_nil _).symm
        (serves_errands catalog entry cycles) held).mp lazy
      apply assigned
      apply Nat.le_zero.mp
      rw [← none]
      exact outerAssignments_le_of_mem member
    · have single := once.once
      omega
  · exact constructedOnce_of_not_leaks cycles apart values hs shared

/-- Where no eager object needs an eager one from inside a function, every shared object is
constructed once. -/
theorem constructed_once_of_independent
    (independent : ∀ outer inner, (catalog.injector options entry).IsEager outer →
      (catalog.injector options entry).IsEager inner →
      ¬ (catalog.injector options entry).NeedsLater (.ofClass outer) (.ofClass inner)) :
  ConstructedOnce catalog options entry s
  := by
  apply constructedOnce_of_not_leaks cycles apart values hs shared
  rintro ⟨⟨inner, _, _, -, eager, ⟨outer, eager', needs⟩, -⟩, -⟩
  exact independent outer inner eager' eager needs

end

/-! ### An eager object inside a function -/

/-- Nothing is requested of what the module binds. -/
def pooledEntry : EntryPoint where
  name := "main"
  modules := ["M"]

/-- An eager object that is handed a way to call for another one, and an object that they share. -/
def pooledDeclarations : List Declaration :=
  [ .ofClass { name := "Outer", params := ["poolProvider", "shared"] },
    .ofClass { name := "Inner", params := ["shared"] },
    .ofClass { name := "Shared" },
    .ofModule
      { name := "M"
        bindings :=
          [ { key := "outer", source := .type "Outer", scope := some .eagerSingleton },
            { key := "pool", source := .provider ["inner"] },
            { key := "inner", source := .type "Inner", scope := some .eagerSingleton },
            { key := "shared", source := .type "Shared", scope := some .singleton } ] },
    .ofEntry pooledEntry ]

def pooled : Catalog :=
  (Registry.addAll {} {} pooledDeclarations >>= Registry.close).value

theorem pooledEntry_mem :
  pooledEntry ∈ pooled.entries
  := by
  decide +kernel

/-- The injector that serves them. -/
def pooledInjector : Injector where
  options := {}
  entry := pooledEntry
  modules := [{ name := "m", moduleName := "M", configure := "configure" }]
  bindings :=
    [ ⟨{ key := "outer", source := .type "Outer", scope := some .eagerSingleton, owner := "M" },
        "m"⟩,
      ⟨{ key := "pool", source := .provider ["inner"], owner := "M" }, "m"⟩,
      ⟨{ key := "inner", source := .type "Inner", scope := some .eagerSingleton, owner := "M" },
        "m"⟩,
      ⟨{ key := "shared", source := .type "Shared", scope := some .singleton, owner := "M" }, "m"⟩ ]
  interceptors := []
  classes :=
    [ ⟨{ name := "Outer", params := ["poolProvider", "shared"] }, .eagerSingleton, [], false⟩,
      ⟨{ name := "Inner", params := ["shared"] }, .eagerSingleton, [], false⟩,
      ⟨{ name := "Shared" }, .singleton, [], false⟩ ]

theorem ofEntry_pooled :
  ofEntry pooled {} pooledEntry = pooledInjector
  := by
  rw [ofEntry_eq]
  decide +kernel

theorem injector_pooled :
  pooled.injector {} pooledEntry = pooledInjector
  := by
  rw [injector, ofEntry_pooled]
  rfl

theorem progress_pooled :
  pooled.progress {} pooledEntry = (pooledInjector.serve.run {}).2
  := by
  rw [progress, injector_pooled]

theorem shared_mem_pooled :
  ⟨"Shared", "singletonInstance2", false⟩ ∈ (pooled.progress {} pooledEntry).singletons
  := by
  rw [progress_pooled]
  decide +kernel

theorem shared_pooled :
  ∃ c, (pooled.injector {} pooledEntry).class? "Shared" = some c ∧ c.scope = .singleton
  := by
  rw [injector_pooled]
  exact ⟨⟨{ name := "Shared" }, .singleton, [], false⟩, rfl, rfl⟩

theorem assignFree_pooled :
  (pooled.injector {} pooledEntry).AssignFree
  := by
  rw [injector_pooled]
  simp [AssignFree, pooledInjector]

/-- The statement of the inner object assigns the variable of the shared object, and so does that of
the outer one. -/
theorem assignments_pooled :
  (pooled.planEntry {} pooledEntry).value.outer.countP (Expr.assigns "singletonInstance2") = 2
  := by
  have plan : (pooled.planEntry {} pooledEntry).value.outer
      = (pooled.progress {} pooledEntry).outer := rfl
  rw [plan, progress_pooled]
  decide +kernel

theorem not_constructed_once_pooled :
  ¬ ∀ (options : Options) (declarations : List Declaration) (entry : EntryPoint),
    let catalog := (Registry.addAll options {} declarations >>= Registry.close).value
    entry ∈ catalog.entries → options.detectCycles = true →
    options.singletonPrefix = "singletonInstance" → options.instancePrefix = "instance$" →
    (catalog.injector options entry).AssignFree →
    ∀ s ∈ (catalog.progress options entry).singletons,
      (∃ c, (catalog.injector options entry).class? s.className = some c
        ∧ c.scope = .singleton) →
      ConstructedOnce catalog options entry s
  := by
  intro all
  have constructed : ConstructedOnce pooled {} pooledEntry _ :=
    all {} pooledDeclarations pooledEntry pooledEntry_mem rfl rfl rfl assignFree_pooled _
      shared_mem_pooled shared_pooled
  have once := constructed.once
  rw [assignments_pooled] at once
  omega

/-- The inner object leaks. -/
theorem leaks_pooled :
  (pooled.injector {} pooledEntry).Leaks ⟨"Shared", "singletonInstance2", false⟩
    (pooled.planEntry {} pooledEntry).value
  := by
  by_contra none
  have once := ((constructed_once_iff rfl prefixesApart_default assignFree_pooled shared_mem_pooled
    shared_pooled).mpr none).once
  rw [assignments_pooled] at once
  omega

end Catalog

end Wiring
