import Wiring.Proofs.Planning
import Mathlib.Data.List.Nodup

/-!
# Injectors with their classes in another order

Resolution looks a class up by its name and never by its place. So an injector whose classes stand
in another order is served in the same way, step by step (`serve_withClasses`).
-/

namespace Wiring

namespace Injector

/-- The injector with other classes. -/
def withClasses (inj : Injector) (classes : List ManagedClass) : Injector :=
  { inj with classes }

theorem plan_withClasses (inj : Injector) (classes : List ManagedClass) (p : Progress) :
  (inj.withClasses classes).plan p = inj.plan p
  := rfl

section

variable {inj : Injector} {classes : List ManagedClass}
  (same : ∀ name, (inj.withClasses classes).class? name = inj.class? name)

include same

/-! ### Dependencies -/

theorem objectOf_withClasses :
  (inj.withClasses classes).objectOf = inj.objectOf
  := by
  funext className
  rw [objectOf, same, objectOf]

theorem bound_withClasses :
  (inj.withClasses classes).bound = inj.bound
  := by
  funext b
  unfold bound
  rw [objectOf_withClasses same]

theorem parameter_withClasses :
  (inj.withClasses classes).parameter = inj.parameter
  := by
  funext name
  unfold parameter
  rw [bound_withClasses same]
  rfl

theorem requested_withClasses :
  (inj.withClasses classes).requested = inj.requested
  := by
  funext wanted
  unfold requested
  rw [bound_withClasses same, objectOf_withClasses same]
  rfl

theorem eagerBindings_withClasses :
  (inj.withClasses classes).eagerBindings = inj.eagerBindings
  := by
  have lookup : (inj.withClasses classes).class? = inj.class? := funext same
  unfold eagerBindings
  rw [lookup]
  rfl

/-! ### Resolution -/

theorem resolveAll_withClasses :
  (inj.withClasses classes).resolveAll = inj.resolveAll
  := by
  unfold resolveAll
  rw [parameter_withClasses same]

theorem provide_withClasses :
  (inj.withClasses classes).provide = inj.provide
  := by
  unfold provide
  rw [resolveAll_withClasses same]
  rfl

theorem create_withClasses :
  (inj.withClasses classes).create = inj.create
  := by
  unfold create callSetter
  rw [resolveAll_withClasses same]
  rfl

theorem useClass_withClasses :
  (inj.withClasses classes).useClass = inj.useClass
  := by
  unfold useClass firstUse laterUse
  rw [create_withClasses same]
  rfl

theorem resolveTo_withClasses (depth : Nat) :
  (inj.withClasses classes).resolveTo depth = inj.resolveTo depth
  := by
  induction depth with
  | zero => rfl
  | succ depth ih =>
      unfold resolveTo resolveOnce provideLater
      rw [ih, useClass_withClasses same, provide_withClasses same]

/-- The injector is served in the same way, if there are as many classes. -/
theorem serve_withClasses (number : classes.length = inj.classes.length) :
  (inj.withClasses classes).serve = inj.serve
  := by
  have depth : (inj.withClasses classes).depth = inj.depth := by
    simp [Injector.depth, steps, withClasses, number]
  unfold serve constructEager answer resolve resolveAt
  rw [depth, resolveTo_withClasses same, eagerBindings_withClasses same,
    requested_withClasses same]
  rfl

end

end Injector

end Wiring
