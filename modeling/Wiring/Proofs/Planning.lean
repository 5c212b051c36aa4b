import Wiring.Planning
import Wiring.Proofs.Injector.Scopes
import Wiring.Proofs.Resolution.Eager

/-!
# Planning an entry point

An entry point is planned by the service of its injector, from nothing: first every eager object is
constructed, and then every request is answered. When the requests come, every eager object is held
(`started_constructed`).
-/

namespace Wiring

namespace Catalog

open Injector

variable [Dialect] {catalog : Catalog} {options : Options} {entry : EntryPoint}

/-- The injector that an entry point is planned with. -/
def injector (catalog : Catalog) (options : Options) (entry : EntryPoint) : Injector :=
  ((Injector.ofEntry catalog options entry).select catalog options.namespaceMode).value

/-- The progress once every eager object has been constructed. -/
def constructed (catalog : Catalog) (options : Options) (entry : EntryPoint) : Progress :=
  ((catalog.injector options entry).constructEager.run {}).2

/-- The progress that an entry point is planned by. -/
def progress (catalog : Catalog) (options : Options) (entry : EntryPoint) : Progress :=
  ((catalog.injector options entry).serve.run {}).2

theorem statements_planEntry (catalog : Catalog) (options : Options) (entry : EntryPoint) :
  (catalog.planEntry options entry).value.statements
    = (catalog.progress options entry).statements.toList
  := rfl

theorem declarations_planEntry (catalog : Catalog) (options : Options) (entry : EntryPoint) :
  (catalog.planEntry options entry).value.declarations
    = (catalog.progress options entry).declarations.toList
  := rfl

theorem subclasses_planEntry (catalog : Catalog) (options : Options) (entry : EntryPoint) :
  (catalog.planEntry options entry).value.subclasses
    = (catalog.progress options entry).subclasses
  := rfl

theorem reports_planEntry (catalog : Catalog) (options : Options) (entry : EntryPoint) :
  (catalog.planEntry options entry).reports
    = ((Injector.ofEntry catalog options entry).select catalog options.namespaceMode).reports
      ++ (catalog.progress options entry).reports.toList
  := rfl

/-- Selection reports no failed look-up, so those reported for a plan are those of its errands. -/
theorem failures_planEntry (catalog : Catalog) (options : Options) (entry : EntryPoint) :
  (catalog.planEntry options entry).reports.filter (·.problem.stage = .resolution)
    = (catalog.progress options entry).reports.toList.filter (·.problem.stage = .resolution)
  := by
  rw [reports_planEntry, List.filter_append, List.filter_eq_nil_iff.mpr, List.nil_append]
  intro d hd
  obtain ⟨className, method, problem⟩ := problem_of_mem_reports_select hd
  simp [problem, Problem.stage]

section

variable (catalog) (entry) (cycles : options.detectCycles = true)

include cycles

theorem serves_constructed :
  (catalog.injector options entry).Serves (catalog.injector options entry).constructions {}
    (catalog.constructed options entry)
  := serves_constructEager cycles {}

theorem serves_progress :
  (catalog.injector options entry).Serves (entry.requests.map .answer)
    (catalog.constructed options entry) (catalog.progress options entry)
  := serves_requests cycles entry.requests _

theorem serves_errands :
  (catalog.injector options entry).Serves (catalog.injector options entry).errands {}
    (catalog.progress options entry)
  := (serves_constructed catalog entry cycles).append (serves_progress catalog entry cycles)

/-- Once the eager bindings have been served, every eager object is held. -/
theorem started_constructed :
  (catalog.injector options entry).Started (catalog.constructed options entry)
  := by
  intro c declared scope
  obtain ⟨b, member⟩ := exists_mem_eagerBindings declared scope
  apply (serves_constructed catalog entry cycles).holds_of_construct _ scope
  · exact b.binding.location
  · apply List.mem_map.mpr
    use (b, c), member

theorem valid_progress :
  (catalog.progress options entry).Valid (catalog.injector options entry)
  := (serves_errands catalog entry cycles).valid (.start _)

end

end Catalog

end Wiring
