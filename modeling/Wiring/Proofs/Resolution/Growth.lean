import Wiring.Proofs.Resolution.Termination
import Mathlib.Data.List.Infix

/-!
# Growth

Resolution only adds to what it has come to. `p.Grows p'` says that the variables of singletons,
the declarations, the subclasses, the statements and the reports of `p` stand at the front of
those of `p'`; of a variable all but its laziness counts. Every derivation makes progress grow
(`Resolves.grows`) and leaves as many functions as it enters (`Resolves.deferred_eq`). The variable
of a class under construction is left alone (`Resolves.singleton?_eq`), and one that is not lazy
stays as it is (`Resolves.settled`).
-/

namespace Wiring

namespace Progress

variable {p q r : Progress} {options : Options} {className other : String} {lazy : Bool}

/-! ### Variables of classes -/

/-- The classes that hold variables, with these. -/
def holdings (p : Progress) : List (String × String) :=
  p.singletons.map fun s => (s.className, s.name)

/-- The variable of a class bears its name. -/
theorem className_of_singleton? {s : SingletonVariable} (h : p.singleton? className = some s) :
  s.className = className
  := by
  simpa using List.find?_some h

theorem singleton?_takeSingleton_self (unheld : p.singleton? className = none) :
  (p.takeSingleton options className lazy).singleton? className
    = some ⟨className, p.nextSingleton options, lazy⟩
  := by
  simp only [singleton?, takeSingleton] at unheld ⊢
  simp [List.find?_append, unheld]

@[simp]
theorem temporaries_addSubclass {inj : Injector} {c : ManagedClass} :
  (p.addSubclass inj c).temporaries = p.temporaries
  := by
  unfold addSubclass
  split <;> rfl

@[simp]
theorem nextSingleton_addSubclass {inj : Injector} {c : ManagedClass} :
  (p.addSubclass inj c).nextSingleton options = p.nextSingleton options
  := by
  simp [nextSingleton]

/-- The variable that a class takes is the next one, also when its subclass is new. -/
theorem singleton?_takeSingleton_addSubclass {inj : Injector} {c : ManagedClass}
    (unheld : p.singleton? className = none) :
  ((p.addSubclass inj c).takeSingleton options className lazy).singleton? className
    = some ⟨className, p.nextSingleton options, lazy⟩
  := by
  rw [singleton?_takeSingleton_self (by simpa using unheld), nextSingleton_addSubclass]

theorem singleton?_takeSingleton_of_ne (h : other ≠ className) :
  (p.takeSingleton options className lazy).singleton? other = p.singleton? other
  := by
  simp [singleton?, takeSingleton, List.find?_append, h.symm]

/-- Taking a variable for a class that holds none leaves all others alone. -/
theorem singleton?_takeSingleton_of_held {s : SingletonVariable}
    (unheld : p.singleton? className = none) (held : p.singleton? other = some s) :
  (p.takeSingleton options className lazy).singleton? other = some s
  := by
  have ne : other ≠ className := by
    rintro rfl
    cases unheld.symm.trans held
  rw [singleton?_takeSingleton_of_ne ne, held]

theorem singleton?_setLazy (className other : String) (lazy : Bool) (p : Progress) :
  (p.setLazy className lazy).singleton? other
    = (p.singleton? other).map fun s => if s.className = className then { s with lazy } else s
  := by
  simp only [singleton?, setLazy, List.find?_map]
  congr 2
  funext s
  simp only [Function.comp_apply]
  split <;> rfl

theorem singleton?_setLazy_of_ne (h : other ≠ className) :
  (p.setLazy className lazy).singleton? other = p.singleton? other
  := by
  rw [singleton?_setLazy]
  cases held : p.singleton? other with
  | none => rfl
  | some s => simp [className_of_singleton? held, h]

@[simp]
theorem holdings_setLazy (className : String) (lazy : Bool) (p : Progress) :
  (p.setLazy className lazy).holdings = p.holdings
  := by
  simp only [holdings, setLazy, List.map_map]
  congr 1
  funext s
  simp only [Function.comp_apply]
  split <;> rfl

@[simp]
theorem holdings_addSubclass (inj : Injector) (c : ManagedClass) (p : Progress) :
  (p.addSubclass inj c).holdings = p.holdings
  := by
  simp [holdings]

@[simp]
theorem statements_setLazy (className : String) (lazy : Bool) (p : Progress) :
  (p.setLazy className lazy).statements = p.statements
  := rfl

@[simp]
theorem deferred_setLazy (className : String) (lazy : Bool) (p : Progress) :
  (p.setLazy className lazy).deferred = p.deferred
  := rfl

@[simp]
theorem statements_takeSingleton (options : Options) (className : String) (lazy : Bool)
    (p : Progress) :
  (p.takeSingleton options className lazy).statements = p.statements
  := rfl

@[simp]
theorem deferred_takeSingleton (options : Options) (className : String) (lazy : Bool)
    (p : Progress) :
  (p.takeSingleton options className lazy).deferred = p.deferred
  := rfl

@[simp]
theorem statements_hold (options : Options) (target : Option String) (p : Progress) :
  (p.hold options target).statements = p.statements
  := by
  cases target <;> rfl

@[simp]
theorem singleton?_hold (options : Options) (target : Option String) (className : String)
    (p : Progress) :
  (p.hold options target).singleton? className = p.singleton? className
  := by
  cases target <;> rfl

@[simp]
theorem reports_hold (options : Options) (target : Option String) (p : Progress) :
  (p.hold options target).reports = p.reports
  := by
  cases target <;> rfl

@[simp]
theorem deferred_hold (options : Options) (target : Option String) (p : Progress) :
  (p.hold options target).deferred = p.deferred
  := by
  cases target <;> rfl

/-! ### Growth -/

/-- All of the first progress stands at the front of the second one. -/
structure Grows (p q : Progress) : Prop where
  holdings : p.holdings <+: q.holdings
  declarations : p.declarations.toList <+: q.declarations.toList
  subclasses : p.subclasses <+: q.subclasses
  statements : p.statements.toList <+: q.statements.toList
  reports : p.reports.toList <+: q.reports.toList

namespace Grows

theorem refl (p : Progress) :
  p.Grows p
  where
  holdings := List.prefix_rfl
  declarations := List.prefix_rfl
  subclasses := List.prefix_rfl
  statements := List.prefix_rfl
  reports := List.prefix_rfl

theorem trans (h : p.Grows q) (h' : q.Grows r) :
  p.Grows r
  where
  holdings := h.holdings.trans h'.holdings
  declarations := h.declarations.trans h'.declarations
  subclasses := h.subclasses.trans h'.subclasses
  statements := h.statements.trans h'.statements
  reports := h.reports.trans h'.reports

end Grows

/-- A variable that has been taken stays that of its class. -/
theorem Grows.singleton? (h : p.Grows q) {s : SingletonVariable}
    (held : p.singleton? className = some s) :
  ∃ t, q.singleton? className = some t ∧ t.name = s.name
  := by
  have find_holdings : ∀ r : Progress, r.holdings.find? (·.1 = className)
      = (r.singleton? className).map fun s => (s.className, s.name) := by
    intro r
    rw [Progress.holdings, List.find?_map]
    rfl
  have front : q.holdings.find? (·.1 = className) = some (s.className, s.name) := by
    apply h.holdings.find?_eq_some
    rw [find_holdings, held]
    rfl
  rw [find_holdings] at front
  obtain ⟨t, ht, heq⟩ := Option.map_eq_some_iff.mp front
  use t, ht
  simp_all

theorem grows_addSubclass (inj : Injector) (c : ManagedClass) (p : Progress) :
  p.Grows (p.addSubclass inj c)
  where
  holdings := by simp
  declarations := by simp
  subclasses := by
    unfold addSubclass
    split
    · apply List.prefix_append
    · apply List.prefix_rfl
  statements := by simp
  reports := by simp

theorem grows_takeSingleton (options : Options) (className : String) (lazy : Bool)
    (p : Progress) :
  p.Grows (p.takeSingleton options className lazy)
  := by
  constructor <;> simp [takeSingleton, Progress.holdings]

theorem grows_hold (options : Options) (target : Option String) (p : Progress) :
  p.Grows (p.hold options target)
  := by
  cases target with
  | none => constructor <;> simp [hold, takeTemporary, Progress.holdings]
  | some target => apply Grows.refl

theorem grows_setLazy (className : String) (lazy : Bool) (p : Progress) :
  p.Grows (p.setLazy className lazy)
  := by
  constructor
  · rw [holdings_setLazy]
  all_goals apply List.prefix_rfl

theorem grows_emit (statement : PlanStatement) (p : Progress) :
  p.Grows (p.emit statement)
  := by
  constructor <;> simp [emit, Progress.holdings]

theorem grows_report (problem : Problem) (location : Location) (p : Progress) :
  p.Grows (p.report problem location)
  := by
  constructor <;> simp [report, Progress.holdings]

theorem grows_defer (p : Progress) :
  p.Grows p.defer
  := by
  constructor <;> simp [defer, Progress.holdings]

theorem grows_resume (p : Progress) :
  p.Grows p.resume
  := by
  constructor <;> simp [resume, Progress.holdings]

end Progress

/-- The step that the task is in the middle of, before its site knows of it. -/
def Task.entered : Task → List Step
  | .creation c _ => [.ofClass c.name]
  | _ => []

namespace Injector

open Progress

variable {inj : Injector} {site : Site} {task : Task} {p p' : Progress} {es : List Expr}

/-! ### Derivations -/

/-- Resolution makes progress grow. -/
theorem Resolves.grows (h : inj.Resolves site task p es p') :
  p.Grows p'
  := by
  induction h with
  | value _ => apply Grows.refl
  | absent => apply grows_report
  | cyclicObject _ _ => apply grows_report
  | held _ _ _ _ => apply grows_addSubclass
  | heldLazily _ _ _ _ _ ih =>
      apply (grows_addSubclass _ _ _).trans
      apply ih.trans
      apply grows_setLazy
  | prototype _ _ _ _ _ ih => apply (grows_addSubclass _ _ _).trans ih
  | singleton _ _ _ _ _ ih =>
      apply (grows_addSubclass _ _ _).trans
      apply (grows_takeSingleton _ _ _ _).trans ih
  | eagerSingleton _ _ _ _ _ ih =>
      apply (grows_addSubclass _ _ _).trans
      apply (grows_takeSingleton _ _ _ _).trans
      apply ih.trans
      apply grows_emit
  | provided _ ih => apply ih
  | providerFunction _ ih =>
      apply (grows_defer _).trans
      apply ih.trans
      apply grows_resume
  | cyclicCall _ _ _ => apply grows_report
  | call _ _ _ _ ih => apply ih
  | creation _ _ _ ih => apply ih
  | creationWithSetters _ _ _ _ ih₁ ih₂ =>
      apply ih₁.trans
      apply (grows_hold _ _ _).trans ih₂
  | noParameters => apply Grows.refl
  | parameter _ _ ih₁ ih₂ => apply ih₁.trans ih₂
  | noSetters => apply Grows.refl
  | setter _ _ ih₁ ih₂ => apply ih₁.trans ih₂

/-- Resolution leaves as many functions as it enters. -/
theorem Resolves.deferred_eq (h : inj.Resolves site task p es p') :
  p'.deferred = p.deferred
  := by
  induction h with
  | held _ _ _ _ => simp
  | heldLazily _ _ _ _ _ ih => simpa [setLazy] using ih
  | prototype _ _ _ _ _ ih => simpa using ih
  | singleton _ _ _ _ _ ih => simpa [takeSingleton] using ih
  | eagerSingleton _ _ _ _ _ ih => simpa [takeSingleton, emit] using ih
  | provided _ ih => exact ih
  | providerFunction _ ih => simp [resume, ih, defer]
  | call _ _ _ _ ih => exact ih
  | creation _ _ _ ih => exact ih
  | creationWithSetters _ _ _ _ ih₁ ih₂ => rw [ih₂, deferred_hold, ih₁]
  | parameter _ _ ih₁ ih₂ => rw [ih₂, ih₁]
  | setter _ _ ih₁ ih₂ => rw [ih₂, ih₁]
  | _ => rfl

/-- The variable of a class under construction is left alone. -/
theorem Resolves.singleton?_eq (cycles : inj.options.detectCycles = true)
    (h : inj.Resolves site task p es p') {className : String}
    (inside : .ofClass className ∈ task.entered ++ site.trail) :
  p'.singleton? className = p.singleton? className
  := by
  -- a class that is used is not under construction yet
  have ne_of_fresh : ∀ {site : Site} {c : ManagedClass},
      inj.closesCycle site (.ofClass c.name) = false → .ofClass className ∈ site.trail →
      className ≠ c.name := by
    rintro site c fresh inside rfl
    apply not_mem_of_fresh cycles fresh inside
  induction h with
  | held _ _ _ _ => simp
  | heldLazily _ fresh _ _ _ ih =>
      rw [singleton?_setLazy_of_ne (ne_of_fresh fresh inside), ih (by simp_all [Task.entered]),
        singleton?_addSubclass]
  | prototype _ _ _ _ _ ih => rw [ih (by simp_all [Task.entered]), singleton?_addSubclass]
  | singleton _ fresh _ _ _ ih =>
      rw [ih (by simp_all [Task.entered]),
        singleton?_takeSingleton_of_ne (ne_of_fresh fresh inside), singleton?_addSubclass]
  | eagerSingleton _ fresh _ _ _ ih =>
      have eq := ih (by simp_all [Task.entered])
      rw [singleton?_takeSingleton_of_ne (ne_of_fresh fresh inside), singleton?_addSubclass] at eq
      apply eq
  | provided _ ih => apply ih inside
  | providerFunction _ ih => apply ih inside
  | call _ _ _ _ ih => apply ih (List.mem_append_right _ (List.mem_cons_of_mem _ inside))
  | creation _ _ _ ih => apply ih inside
  | creationWithSetters _ _ _ _ ih₁ ih₂ => rw [ih₂ inside, singleton?_hold, ih₁ inside]
  | parameter _ _ ih₁ ih₂ => rw [ih₂ inside, ih₁ inside]
  | setter _ _ ih₁ ih₂ => rw [ih₂ inside, ih₁ inside]
  | _ => rfl

/-- A variable that is not lazy stays as it is. -/
theorem Resolves.settled (h : inj.Resolves site task p es p') {className : String}
    {s : SingletonVariable} (held : p.singleton? className = some s) (settled : s.lazy = false) :
  p'.singleton? className = some s
  := by
  induction h with
  | held _ _ _ _ => simpa using held
  | @heldLazily _ c _ _ _ _ _ _ heldLazily lazy _ ih =>
      have ne : className ≠ c.name := by
        rintro rfl
        simp_all
      rw [singleton?_setLazy_of_ne ne]
      apply ih
      simpa using held
  | prototype _ _ _ _ _ ih =>
      apply ih
      simpa using held
  | singleton _ _ unheld _ _ ih =>
      apply ih
      apply singleton?_takeSingleton_of_held (by simpa using unheld) (by simpa using held)
  | eagerSingleton _ _ unheld _ _ ih =>
      apply ih
      apply singleton?_takeSingleton_of_held (by simpa using unheld) (by simpa using held)
  | provided _ ih => apply ih held
  | providerFunction _ ih => apply ih held
  | call _ _ _ _ ih => apply ih held
  | creation _ _ _ ih => apply ih held
  | creationWithSetters _ _ _ _ ih₁ ih₂ =>
      apply ih₂
      rw [singleton?_hold, ih₁ held]
  | parameter _ _ ih₁ ih₂ => apply ih₂ (ih₁ held)
  | setter _ _ ih₁ ih₂ => apply ih₂ (ih₁ held)
  | _ => exact held

end Injector

end Wiring
