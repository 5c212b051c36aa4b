import Wiring.Proofs.Planning

/-!
# Twin injectors

Two injectors are twins if they agree in everything but the interceptors and the methods that these
select. Their classes correspond to each other, and with the classes all that their names lead to
(`Twins.within_parameter`, `Twins.within_requested`) and the errands that they are run for
(`Twins.map_constructions`). Of two catalogs that differ in the interceptors of their modules only,
every entry point gets twins (`twins_ofEntry`).
-/

namespace Wiring

/-- The class with no methods selected. -/
def ManagedClass.bare (c : ManagedClass) : ManagedClass :=
  { c with selected := [], isIntercepted := false }

namespace Injector

/-- The injectors agree in everything but the interceptors and the methods that these select. -/
structure Twins (inj₁ inj₂ : Injector) : Prop where
  options : inj₂.options = inj₁.options
  entry : inj₂.entry = inj₁.entry
  modules : inj₂.modules = inj₁.modules
  bindings : inj₂.bindings = inj₁.bindings
  classes : inj₂.classes.map ManagedClass.bare = inj₁.classes.map ManagedClass.bare

/-- The class as another injector has it, where other methods may be selected. -/
def counterpart (inj : Injector) (c : ManagedClass) : ManagedClass :=
  { c with
    selected := ((inj.class? c.name).getD c).selected
    isIntercepted := ((inj.class? c.name).getD c).isIntercepted }

end Injector

/-! ### Correspondence -/

/-- The dependency as another injector has it. -/
def Dependency.within (inj : Injector) : Dependency → Dependency
  | .object c => .object (inj.counterpart c)
  | d => d

/-- The task as another injector has it. -/
def Task.within (inj : Injector) : Task → Task
  | .dependency d => .dependency (d.within inj)
  | .parameters names => .parameters names
  | .call b params => .call b params
  | .creation c target => .creation (inj.counterpart c) target
  | .setters c target names => .setters (inj.counterpart c) target names

/-- The errand as another injector has it. -/
def Errand.within (inj : Injector) : Errand → Errand
  | .construct location c => .construct location (inj.counterpart c)
  | .answer request => .answer request

@[simp]
theorem Errand.location_within (inj : Injector) (errand : Errand) :
  (errand.within inj).location = errand.location
  := by
  cases errand <;> rfl

namespace Injector

variable {inj₁ inj₂ : Injector} (twins : inj₁.Twins inj₂) {c : ManagedClass}

namespace Twins

include twins

theorem map_class? (name : String) :
  (inj₂.class? name).map ManagedClass.bare = (inj₁.class? name).map ManagedClass.bare
  := by
  have bare_class? (inj : Injector) : (inj.class? name).map ManagedClass.bare
      = (inj.classes.map ManagedClass.bare).find? (·.name = name) := by
    rw [List.find?_map]
    rfl
  rw [bare_class?, bare_class?, twins.classes]

/-- A class that the one injector has the other one has, too. -/
theorem class?_counterpart (declared : inj₁.class? c.name = some c) :
  inj₂.class? c.name = some (inj₂.counterpart c)
  := by
  have same := twins.map_class? c.name
  rw [declared, Option.map_some] at same
  obtain ⟨⟨decl, scope, selected, isIntercepted⟩, found, bare⟩ := Option.map_eq_some_iff.mp same
  obtain ⟨rfl, rfl, -⟩ := ManagedClass.mk.inj bare
  rw [counterpart, found, Option.getD_some]

theorem binding?_eq (key : String) :
  inj₂.binding? key = inj₁.binding? key
  := by
  rw [binding?, twins.bindings, binding?]

theorem closesCycle_eq (site : Site) (step : Step) :
  inj₂.closesCycle site step = inj₁.closesCycle site step
  := by
  rw [closesCycle, twins.options, closesCycle]

theorem within_objectOf (className : String) :
  (inj₁.objectOf className).within inj₂ = inj₂.objectOf className
  := by
  unfold objectOf
  cases h : inj₁.class? className with
  | none =>
      have none := twins.map_class? className
      rw [h, Option.map_none, Option.map_eq_none_iff] at none
      simp [none, Dependency.within]
  | some c =>
      obtain rfl := name_of_class? h
      rw [twins.class?_counterpart h]
      rfl

theorem within_bound (b : OwnedBinding) :
  (inj₁.bound b).within inj₂ = inj₂.bound b
  := by
  unfold bound
  cases b.binding.source with
  | type className => apply twins.within_objectOf
  | value e => rfl
  | provider params => rfl

theorem within_providerOf (key : String) :
  (inj₁.providerOf key).within inj₂ = inj₂.providerOf key
  := by
  unfold providerOf
  rw [twins.binding?_eq]
  cases inj₁.binding? key with
  | none => rfl
  | some b => cases source : b.binding.source <;> simp [source, Dependency.within]

/-- A parameter leads to the same for both. -/
theorem within_parameter (name : String) :
  (inj₁.parameter name).within inj₂ = inj₂.parameter name
  := by
  unfold parameter
  rw [twins.binding?_eq, twins.options]
  cases inj₁.binding? name with
  | some b => apply twins.within_bound
  | none =>
      cases inj₁.options.providedKey? name with
      | none => rfl
      | some key => apply twins.within_providerOf

/-- A request asks for the same of both. -/
theorem within_requested (wanted : Wanted) :
  (inj₁.requested wanted).within inj₂ = inj₂.requested wanted
  := by
  cases wanted with
  | ofClass name => apply twins.within_objectOf
  | ofKey key =>
      unfold requested
      simp only [twins.binding?_eq]
      cases inj₁.binding? key with
      | some b => apply twins.within_bound
      | none => rfl

theorem dependency_within (errand : Errand) :
  (errand.dependency inj₁).within inj₂ = (errand.within inj₂).dependency inj₂
  := by
  cases errand with
  | construct location c => rfl
  | answer request => apply twins.within_requested

/-- The same bindings are eager for both. -/
theorem map_eagerBindings :
  inj₁.eagerBindings.map (fun x => (x.1, inj₂.counterpart x.2)) = inj₂.eagerBindings
  := by
  unfold eagerBindings
  rw [List.map_filterMap, twins.bindings]
  apply List.filterMap_congr
  intro b _
  by_cases eager : b.binding.scopeGiven.isEager
  · simp only [eager, if_true]
    cases b.binding.className? with
    | none => rfl
    | some name =>
        cases h : inj₁.class? name with
        | none =>
            have none := twins.map_class? name
            rw [h, Option.map_none, Option.map_eq_none_iff] at none
            simp [h, none]
        | some c =>
            obtain rfl := name_of_class? h
            have scope : (inj₂.counterpart c).scope = c.scope := rfl
            by_cases left : c.scope.isEager <;>
              simp [h, twins.class?_counterpart h, Option.filter_some, scope, left]
  · simp [eager]

/-- Both are run for the same eager objects. -/
theorem map_constructions :
  inj₁.constructions.map (·.within inj₂) = inj₂.constructions
  := by
  unfold constructions
  rw [← twins.map_eagerBindings, List.map_map, List.map_map]
  rfl

end Twins

end Injector

namespace Catalog

/-- The catalog with no interceptors. -/
def withoutInterceptors (catalog : Catalog) : Catalog :=
  { catalog with modules := catalog.modules.map fun m => { m with interceptors := [] } }

end Catalog

namespace Injector

theorem listedModules_withoutInterceptors (catalog : Catalog) (entry : EntryPoint) :
  listedModules catalog.withoutInterceptors entry
    = (listedModules catalog entry).map fun m => { m with interceptors := [] }
  := by
  have module?_eq (name : String) : catalog.withoutInterceptors.module? name
      = (catalog.module? name).map fun m => { m with interceptors := [] } :=
    List.find?_map
  unfold listedModules
  rw [List.map_filterMap]
  apply List.filterMap_congr
  intro name _
  apply module?_eq

/-- An injector gets its modules, its bindings and its classes whatever interceptors there are. -/
theorem ofEntry_withoutInterceptors (catalog : Catalog) (options : Options) (entry : EntryPoint) :
  ofEntry catalog.withoutInterceptors options entry
    = { ofEntry catalog options entry with interceptors := [] }
  := by
  have bindings : flattenBindings (listedModules catalog.withoutInterceptors entry)
      = flattenBindings (listedModules catalog entry) := by
    rw [listedModules_withoutInterceptors, flattenBindings, declaredBindings, List.flatMap_map]
    rfl
  have interceptors : flattenInterceptors (listedModules catalog.withoutInterceptors entry)
      = [] := by
    rw [listedModules_withoutInterceptors, flattenInterceptors, List.flatMap_map]
    simp
  have handles : (listedModules catalog.withoutInterceptors entry).map moduleHandle
      = (listedModules catalog entry).map moduleHandle := by
    rw [listedModules_withoutInterceptors, List.map_map]
    rfl
  rw [ofEntry_eq, ofEntry_eq, bindings, interceptors, handles]
  rfl

/-- Whatever selects methods, only the methods selected are different afterwards. -/
theorem bare_classes_select [Dialect] (catalog : Catalog) (mode : NamespaceMode) (inj : Injector) :
  (inj.select catalog mode).value.classes.map ManagedClass.bare
    = inj.classes.map ManagedClass.bare
  := by
  rw [classes_select, List.map_map]
  rfl

/-- Of catalogs that differ in the interceptors of their modules only, an entry point gets twins. -/
theorem twins_injector [Dialect] {catalog₁ catalog₂ : Catalog} (options : Options)
    (entry : EntryPoint) (h : catalog₁.withoutInterceptors = catalog₂.withoutInterceptors) :
  (catalog₁.injector options entry).Twins (catalog₂.injector options entry)
  := by
  have same : ({ ofEntry catalog₁ options entry with interceptors := [] } : Injector)
      = { ofEntry catalog₂ options entry with interceptors := [] } := by
    rw [← ofEntry_withoutInterceptors, ← ofEntry_withoutInterceptors, h]
  constructor
  · rfl
  · rfl
  · apply (congrArg Injector.modules same).symm
  · apply (congrArg Injector.bindings same).symm
  · have classes : (ofEntry catalog₂ options entry).classes
        = (ofEntry catalog₁ options entry).classes := (congrArg Injector.classes same).symm
    rw [Catalog.injector, Catalog.injector, bare_classes_select, bare_classes_select, classes]

end Injector

end Wiring
