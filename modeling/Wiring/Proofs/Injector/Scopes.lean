import Wiring.Proofs.Injector.Flattening
import Wiring.Proofs.Injector.Selection
import Wiring.Resolution.Basic

/-!
# Scopes of classes

A class of an injector has the scope that the last binding to it gives, and selection leaves the
scopes alone. So a class of eager scope is constructed by one of the eager bindings
(`exists_mem_eagerBindings`).
-/

namespace Wiring

namespace Injector

variable [Dialect] {catalog : Catalog} {options : Options} {entry : EntryPoint}
  {mode : NamespaceMode}

@[simp]
theorem classes_select (inj : Injector) :
  (inj.select catalog mode).value.classes
    = inj.classes.map fun c => (inj.selectFor catalog.bases mode c).value
  := by
  simp [select_eq]

/-- Selection reports ambiguous methods only. -/
theorem problem_of_mem_reports_select {inj : Injector} {d : Diagnostic}
    (h : d ∈ (inj.select catalog mode).reports) :
  ∃ className method, d.problem = .ambiguousMethod className method
  := by
  simp only [select_eq, Reported.reports_bind, Reported.reports_mapM, Reported.reports_pure,
    List.append_nil] at h
  obtain ⟨c, -, hd⟩ := List.mem_flatMap.mp h
  obtain ⟨hit, -, rfl⟩ := List.mem_map.mp hd
  use c.name, hit.method.name
  rfl

/-- A class that is found is a declared one, with its scope and after selection. -/
theorem exists_of_class? {className : String} {c : ManagedClass}
    (declared : ((ofEntry catalog options entry).select catalog mode).value.class? className
      = some c) :
  ∃ decl ∈ catalog.classes, c = ((ofEntry catalog options entry).selectFor catalog.bases mode
    (plainClass (scopesAsked (ofEntry catalog options entry).bindings) decl)).value
  := by
  have member := List.mem_of_find?_eq_some declared
  rw [classes_select] at member
  obtain ⟨plain, hplain, rfl⟩ := List.mem_map.mp member
  obtain ⟨decl, hdecl, rfl⟩ := List.mem_map.mp hplain
  use decl, hdecl
  rfl

theorem decl_mem_of_class? {className : String} {c : ManagedClass}
    (declared : ((ofEntry catalog options entry).select catalog mode).value.class? className
      = some c) :
  c.decl ∈ catalog.classes
  := by
  obtain ⟨_, member, rfl⟩ := exists_of_class? declared
  exact member

/-- The scope of a class is the one that the last binding to it gives. -/
theorem scope_eq {className : String} {c : ManagedClass}
    (declared : ((ofEntry catalog options entry).select catalog mode).value.class? className
      = some c) :
  c.scope = lastScope (ofEntry catalog options entry).bindings className
  := by
  have name : c.name = className := by simpa using List.find?_some declared
  obtain ⟨decl, -, rfl⟩ := exists_of_class? declared
  rw [← name]
  apply getD_scopesAsked

/-- A class that is constructed eagerly has an eager binding. -/
theorem exists_mem_eagerBindings {className : String} {c : ManagedClass}
    (declared : ((ofEntry catalog options entry).select catalog mode).value.class? className
      = some c) (scope : c.scope = .eagerSingleton) :
  ∃ b, (b, c) ∈ ((ofEntry catalog options entry).select catalog mode).value.eagerBindings
  := by
  have last := scope_eq declared
  obtain ⟨b, hb, source, given⟩ := exists_of_lastScope (by rw [← last, scope]; simp)
  use b
  apply List.mem_filterMap.mpr
  use b, hb
  simp [given, ← last, scope, Scope.isEager, source, declared]

end Injector

end Wiring
