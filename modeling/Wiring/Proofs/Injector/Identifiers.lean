import Wiring.Proofs.Catalog.WellFormed
import Wiring.Proofs.Name
import Wiring.Proofs.Resolution.Keeping

/-!
# Identifiers of a plan

The variables of the modules and the names of the subclasses are made from the names that were
declared, and no table of those already taken is kept. So in a plan two modules share a variable,
and two subclasses a name, exactly if the names they are made from are alike. A provider or an
interceptor is called on the variable of the module that declares it; that variable is one of the
plan, and it holds another module as well only if that one's name is alike
(`Catalog.shares_identifier_iff`).
-/

namespace Wiring

/-- Of the modules of the plan the variable holds the one of the name, and others only if their names
are like it. -/
structure Plan.Holds (plan : Plan) (handle moduleName : String) : Prop where
  own : ∃ h ∈ plan.modules, h.moduleName = moduleName ∧ h.name = handle
  others : ∀ h ∈ plan.modules, h.name = handle ↔ Alike h.moduleName.toList moduleName.toList

namespace Catalog

open Injector

section

variable [Dialect]

theorem modules_planEntry (catalog : Catalog) (options : Options) (entry : EntryPoint) :
  (catalog.planEntry options entry).value.modules
    = (listedModules catalog entry).map moduleHandle
  := congrArg Injector.modules (ofEntry_eq catalog options entry)

theorem bindings_injector (catalog : Catalog) (options : Options) (entry : EntryPoint) :
  (catalog.injector options entry).bindings = flattenBindings (listedModules catalog entry)
  := congrArg Injector.bindings (ofEntry_eq catalog options entry)

variable {catalog : Catalog} {options : Options} {entry : EntryPoint}

theorem name_of_mem_modules {h : ModuleHandle}
    (member : h ∈ (catalog.planEntry options entry).value.modules) :
  h.name = identifierOf h.moduleName
  := by
  rw [modules_planEntry] at member
  obtain ⟨m, -, rfl⟩ := List.mem_map.mp member
  rfl

theorem name_of_mem_subclasses {s : InterceptingClass}
    (member : s ∈ (catalog.planEntry options entry).value.subclasses) :
  s.name = options.subclassPrefix ++ identifierOf s.base
  := by
  obtain ⟨c, -, -, rfl⟩ := (catalog.woven_progress options entry).subclass s member
  rfl

theorem holds_handle {m : BindingModule} (listed : m ∈ listedModules catalog entry) :
  (catalog.planEntry options entry).value.Holds m.handle m.name
  where
  own := by
    rw [modules_planEntry]
    exact ⟨moduleHandle m, List.mem_map_of_mem listed, rfl, rfl⟩
  others h member := by
    rw [name_of_mem_modules member, BindingModule.handle, identifierOf_eq_iff]

/-- In a plan two modules share a variable, and two subclasses a name, exactly if the names they are
made from are alike. A provider or an interceptor is called on a variable that holds the module it
was declared in, and an intercepted class is constructed through a name that its subclass has; what
else goes by these is declared under names that are alike. -/
theorem shares_identifier_iff (options : Options) (declarations : List Declaration)
    (entry : EntryPoint) :
  let catalog := (Registry.addAll options {} declarations >>= Registry.close).value
  let inj := catalog.injector options entry
  let plan := (catalog.planEntry options entry).value
  (plan.modules.map (·.moduleName)).Nodup ∧ (plan.subclasses.map (·.base)).Nodup
    ∧ (∀ h ∈ plan.modules, ∀ k ∈ plan.modules,
      h.name = k.name ↔ Alike h.moduleName.toList k.moduleName.toList)
    ∧ (∀ s ∈ plan.subclasses, ∀ t ∈ plan.subclasses,
      s.name = t.name ↔ Alike s.base.toList t.base.toList)
    ∧ (∀ b ∈ inj.bindings, plan.Holds b.handle b.binding.owner)
    ∧ (∀ i ∈ inj.interceptors, plan.Holds i.handle i.interceptor.owner)
    ∧ ∀ c ∈ inj.classes, c.isIntercepted = true → ∀ s ∈ plan.subclasses,
      s.name = inj.constructedName c ↔ Alike s.base.toList c.name.toList
  := by
  intro catalog inj plan
  have wellFormed : catalog.WellFormed options.interceptorPrefix :=
    ((Registry.WellFormed.empty _).addAll declarations).close
  have woven := catalog.woven_progress options entry
  refine ⟨?_, woven.distinct, ?_, ?_, ?_, ?_, ?_⟩
  · rw [modules_planEntry, List.map_map]
    apply nodup_listedModules
  · intro h hh k hk
    rw [name_of_mem_modules hh, name_of_mem_modules hk, identifierOf_eq_iff]
  · intro s hs t ht
    rw [name_of_mem_subclasses hs, name_of_mem_subclasses ht, String.append_right_inj,
      identifierOf_eq_iff]
  · intro b hb
    rw [bindings_injector] at hb
    obtain ⟨m, hm, declared, eq⟩ := exists_of_mem_flattenBindings hb
    have owner := (wellFormed.modules m (mem_modules_of_mem_listedModules hm)).bindings _ declared
    rw [owner.2, eq]
    apply holds_handle hm
  · intro i hi
    rw [interceptors_injector] at hi
    obtain ⟨m, hm, declared, eq⟩ := exists_of_mem_flattenInterceptors hi
    have owner :=
      (wellFormed.modules m (mem_modules_of_mem_listedModules hm)).interceptors _ declared
    rw [owner.2, eq]
    apply holds_handle hm
  · intro c _ intercepted s hs
    rw [name_of_mem_subclasses hs, constructedName, if_pos intercepted, interceptingName,
      ← identifierOf_eq_iff]
    apply String.append_right_inj

end

/-- Two kinds of actors go on tour. -/
def tour : EntryPoint where
  name := "tour"
  modules := ["Stage", "stage"]
  requests := [⟨.ofClass "town.Actor", {}⟩, ⟨.ofClass "town_Actor", {}⟩]

/-- Modules and classes under names that are alike. -/
def tourDeclarations : List Declaration :=
  [ .ofClass { name := "town.Actor", methods := [{ name := "play" }] },
    .ofClass { name := "town_Actor", methods := [{ name := "play" }] },
    .ofModule
      { name := "Stage"
        interceptors :=
          [{ classSelector := .any, methodSelector := .any, body := "function(call) { }" }] },
    .ofModule { name := "stage" },
    .ofEntry tour ]

/-- The modules share a variable, and the subclasses share a name. -/
theorem shares_identifier_tour :
  let catalog := (Registry.addAll {} {} tourDeclarations >>= Registry.close).value
  let plan := (catalog.planEntry {} tour).value
  tour ∈ catalog.entries
    ∧ (∃ h ∈ plan.modules, ∃ k ∈ plan.modules, h.moduleName ≠ k.moduleName ∧ h.name = k.name)
    ∧ ∃ s ∈ plan.subclasses, ∃ t ∈ plan.subclasses, s.base ≠ t.base ∧ s.name = t.name
  := by
  intro catalog plan
  have eq : plan = (catalog.planEntry {} tour).value := rfl
  rw [eq, planEntry, ofEntry_eq]
  decide +kernel

end Catalog

end Wiring
