import Wiring.Catalog.Registry
import Wiring.Injector.Selection
import Wiring.Resolution.Basic

/-!
# Planning

Plans the entry points of a catalog. Each one is served by an injector of its own, so that no entry
point sees an object that another one has shared.
-/

namespace Wiring

namespace Catalog

variable [Dialect]

/-- The plan of an entry point. -/
def planEntry (catalog : Catalog) (options : Options) (entry : EntryPoint) : Reported Plan := do
  let inj ← (Injector.ofEntry catalog options entry).select catalog options.namespaceMode
  let ((), progress) := inj.serve.run {}
  { value := inj.plan progress, reports := progress.reports.toList }

/-- The plans of all entry points, in their order. -/
def planAll (catalog : Catalog) (options : Options) : Reported Plans := do
  let plans ← catalog.entries.mapM (catalog.planEntry options)
  return { plans }

/-- The plan of the first entry point of a name. -/
def planNamed? (catalog : Catalog) (options : Options) (name : String) : Option (Reported Plan) :=
  (catalog.entry? name).map (catalog.planEntry options)

end Catalog

end Wiring
