import Wiring.Proofs.Injector.Gathering

/-!
# Flattening

An injector is what the modules of its entry point come to (`ofEntry_eq`). Of the bindings of a key the
one of the first module counts, and of the scopes that bindings give to a class the last one. So nothing
comes of a binding whose key a module before has bound, or of a module that is listed again
(`Catalog.modules_flattened`).
-/

namespace Wiring

namespace Injector

variable {catalog : Catalog} {options : Options} {entry : EntryPoint}

/-! ### Scopes -/

/-- The scope that the last binding to a class gives, the default one if there is none. -/
def lastScope (bindings : List OwnedBinding) (className : String) : Scope :=
  ((bindings.reverse.find? (·.binding.className? = some className)).map
    (·.binding.scopeGiven)).getD .prototype

theorem getD_scopesAsked (bindings : List OwnedBinding) (className : String) :
  (scopesAsked bindings).getD className .prototype = lastScope bindings className
  := by
  unfold scopesAsked lastScope
  induction bindings using List.reverseRecOn with
  | nil => simp
  | append_singleton bindings b ih =>
      rw [List.foldl_append, List.foldl_cons, List.foldl_nil, List.reverse_append,
        List.reverse_singleton, List.singleton_append, List.find?_cons]
      cases source : b.binding.className? with
      | none => simpa using ih
      | some name =>
          by_cases eq : name = className
          · simp [eq]
          · simpa [Std.HashMap.getD_insert, eq] using ih

/-- A scope that is not the default one is given by a binding. -/
theorem exists_of_lastScope {bindings : List OwnedBinding} {className : String}
    (h : lastScope bindings className ≠ .prototype) :
  ∃ b ∈ bindings, b.binding.className? = some className
    ∧ b.binding.scopeGiven = lastScope bindings className
  := by
  cases found : bindings.reverse.find? (·.binding.className? = some className) with
  | none => simp [lastScope, found] at h
  | some b =>
      use b, List.mem_reverse.mp (List.mem_of_find?_eq_some found)
      constructor
      · simpa using List.find?_some found
      · simp [lastScope, found]

/-! ### The injector of an entry point -/

/-- The injector of an entry point, table by table. -/
theorem ofEntry_eq (catalog : Catalog) (options : Options) (entry : EntryPoint) :
  ofEntry catalog options entry
    = { options
        entry
        modules := (listedModules catalog entry).map moduleHandle
        bindings := flattenBindings (listedModules catalog entry)
        interceptors := flattenInterceptors (listedModules catalog entry)
        classes := catalog.classes.map fun c =>
          { decl := c
            scope := lastScope (flattenBindings (listedModules catalog entry)) c.name
            selected := c.methods.map fun _ => [] } }
  := by
  have gathered := Gathered.comprises_ofNames catalog entry.modules
  have classes : plainClass (scopesAsked (Gathered.ofNames catalog entry.modules).table.rows)
      = fun c => { decl := c
                   scope := lastScope (flattenBindings (listedModules catalog entry)) c.name
                   selected := c.methods.map fun _ => [] } := by
    funext c
    rw [plainClass, getD_scopesAsked, gathered.table.rows]
    rfl
  rw [ofEntry, classes, gathered.modules, gathered.table.rows, gathered.interceptors]
  rfl

section

variable (catalog : Catalog) (options : Options) (entry : EntryPoint)

theorem modules_ofEntry :
  (ofEntry catalog options entry).modules = (listedModules catalog entry).map moduleHandle
  := congrArg Injector.modules (ofEntry_eq catalog options entry)

theorem bindings_ofEntry :
  (ofEntry catalog options entry).bindings = flattenBindings (listedModules catalog entry)
  := congrArg Injector.bindings (ofEntry_eq catalog options entry)

theorem interceptors_ofEntry :
  (ofEntry catalog options entry).interceptors = flattenInterceptors (listedModules catalog entry)
  := congrArg Injector.interceptors (ofEntry_eq catalog options entry)

end

/-- By its key the binding of the first module is found that binds it. -/
theorem find?_flattenBindings (modules : List BindingModule) (key : String) :
  (flattenBindings modules).find? (·.binding.key = key)
    = modules.findSome? fun m => (m.binding? key).map fun b => ⟨b, m.handle⟩
  := by
  rw [flattenBindings, find?_firstOfEach, declaredBindings, List.find?_flatMap]
  simp only [List.find?_map]
  rfl

/-- Without a name that has come up before, the list comes to the same. -/
theorem listed_append_cons {before after : List String} {name : String} (h : name ∈ before) :
  listed catalog (before ++ name :: after) = listed catalog (before ++ after)
  := by
  have known : name ∈ before.map id := by rwa [List.map_id]
  rw [listed, eraseDups_eq_firstOfEach, firstOfEach_append_cons id known]
  rfl

end Injector

/-! ### Bindings that do not count -/

/-- The module without its binding of a key. -/
def BindingModule.unbind (m : BindingModule) (key : String) : BindingModule :=
  { m with bindings := m.bindings.filter (·.key ≠ key) }

/-- The catalog without the binding of a key in the module of a name. -/
def Catalog.unbind (catalog : Catalog) (moduleName key : String) : Catalog :=
  { catalog with
    modules := catalog.modules.map fun m => if m.name = moduleName then m.unbind key else m }

namespace Injector

variable {catalog : Catalog} {options : Options} {entry : EntryPoint}

theorem listedModules_unbind (catalog : Catalog) (entry : EntryPoint) (moduleName key : String) :
  listedModules (catalog.unbind moduleName key) entry
    = (listedModules catalog entry).map fun m => if m.name = moduleName then m.unbind key else m
  := by
  have named : ∀ m : BindingModule, m.name = moduleName → (m.unbind key).name = m.name :=
    fun _ _ => rfl
  have module?_eq (name : String) : (catalog.unbind moduleName key).module? name
      = (catalog.module? name).map fun m => if m.name = moduleName then m.unbind key else m :=
    find?_map_ite (fun m : BindingModule => m.name) named catalog.modules name
  rw [listedModules, listedModules, List.map_filterMap]
  apply List.filterMap_congr
  intro name _
  apply module?_eq

/-- A binding of a key that a module before has bound does not count. -/
theorem flattenBindings_unbind {before after : List BindingModule} {m earlier : BindingModule}
    {key : String} (h : earlier ∈ before) (bound : (earlier.binding? key).isSome) :
  flattenBindings (before ++ m.unbind key :: after) = flattenBindings (before ++ m :: after)
  := by
  have known : key ∈ (declaredBindings before).map (·.binding.key) := by
    obtain ⟨b, found⟩ := Option.isSome_iff_exists.mp bound
    have declared : b ∈ earlier.bindings := List.mem_of_find?_eq_some found
    refine List.mem_map.mpr ⟨⟨b, earlier.handle⟩, ?_, by simpa using List.find?_some found⟩
    exact List.mem_flatMap.mpr ⟨earlier, h, List.mem_map_of_mem declared⟩
  have split (m : BindingModule) : declaredBindings (before ++ m :: after)
      = declaredBindings before
        ++ (m.bindings.map (fun b => ⟨b, m.handle⟩) ++ declaredBindings after) := by
    rw [declaredBindings, List.flatMap_append, List.flatMap_cons]
    rfl
  have left : (m.unbind key).bindings.map (fun b => (⟨b, (m.unbind key).handle⟩ : OwnedBinding))
      = (m.bindings.map fun b => ⟨b, m.handle⟩).filter (·.binding.key ≠ key) := by
    rw [List.filter_map]
    rfl
  rw [flattenBindings, flattenBindings, split, split, left]
  apply firstOfEach_append_filter
  intro b _ out
  have eq : b.binding.key = key := by simpa using out
  rwa [eq]

/-- Nothing comes of a binding of a key that a module listed before has bound. -/
theorem ofEntry_unbind {before after : List BindingModule} {m earlier : BindingModule}
    {key : String} (split : listedModules catalog entry = before ++ m :: after)
    (h : earlier ∈ before) (bound : (earlier.binding? key).isSome) :
  ofEntry (catalog.unbind m.name key) options entry = ofEntry catalog options entry
  := by
  -- no other module has the name
  have distinct := nodup_listedModules catalog entry
  rw [split, List.map_append, List.map_cons, List.nodup_middle, ← List.map_append] at distinct
  have others {part : List BindingModule} (sub : part ⊆ before ++ after) :
      (part.map fun other => if other.name = m.name then other.unbind key else other) = part := by
    conv_rhs => rw [← List.map_id part]
    apply List.map_congr_left
    intro other member
    apply if_neg
    intro eq
    apply (List.nodup_cons.mp distinct).1
    rw [← eq]
    exact List.mem_map_of_mem (sub member)
  have modules : listedModules (catalog.unbind m.name key) entry
      = before ++ m.unbind key :: after := by
    rw [listedModules_unbind, split, List.map_append, List.map_cons, if_pos rfl,
      others (List.subset_append_left _ _), others (List.subset_append_right _ _)]
  have bindings : flattenBindings (listedModules (catalog.unbind m.name key) entry)
      = flattenBindings (listedModules catalog entry) := by
    rw [modules, split, flattenBindings_unbind h bound]
  have handles : (listedModules (catalog.unbind m.name key) entry).map moduleHandle
      = (listedModules catalog entry).map moduleHandle := by
    rw [modules, split, List.map_append, List.map_append]
    rfl
  have interceptors : flattenInterceptors (listedModules (catalog.unbind m.name key) entry)
      = flattenInterceptors (listedModules catalog entry) := by
    rw [modules, split, flattenInterceptors, flattenInterceptors, List.flatMap_append,
      List.flatMap_append]
    rfl
  rw [ofEntry_eq, ofEntry_eq, handles, bindings, interceptors]
  rfl

/-- Nothing comes of a name that has been listed before. -/
theorem ofEntry_relisted {before after : List String} {name : String}
    (split : entry.modules = before ++ name :: after) (h : name ∈ before) :
  ofEntry catalog options { entry with modules := before ++ after }
    = { ofEntry catalog options entry with entry := { entry with modules := before ++ after } }
  := by
  have modules : listedModules catalog { entry with modules := before ++ after }
      = listedModules catalog entry := by
    have same : listed catalog (before ++ name :: after) = listed catalog (before ++ after) :=
      listed_append_cons h
    rw [← split] at same
    exact same.symm
  rw [ofEntry_eq, ofEntry_eq, modules]

/-- Of an entry point of the catalog all modules are known. -/
theorem map_name_listedModules {stem : String} (wellFormed : catalog.WellFormed stem)
    (h : entry ∈ catalog.entries) :
  (listedModules catalog entry).map (·.name) = entry.modules.eraseDups
  := by
  have found : ∀ name ∈ entry.modules.eraseDups,
      (catalog.module? name).map (·.name) = some name := by
    intro name member
    obtain ⟨m, hm, eq⟩ := wellFormed.entries entry h name (List.mem_eraseDups.mp member)
    rw [(wellFormed.indexed.module?_eq name m).mpr ⟨hm, eq⟩, Option.map_some, eq]
  rw [listedModules, List.map_filterMap, List.filterMap_congr found, List.filterMap_some]

end Injector

namespace Catalog

open Injector

/-- The modules of an entry point come in the order of their first listing, each once. Bound to a key is
what the first of them binds to it, at one place, which the key has in the index; interceptors come one
module after the other; and a class has the scope that the last binding to it gives. So nothing comes of
a binding whose key a module before has bound, or of a module that is listed again. -/
theorem modules_flattened (options : Options) (declarations : List Declaration)
    (entry : EntryPoint) :
  let catalog := (Registry.addAll options {} declarations >>= Registry.close).value
  let inj := ofEntry catalog options entry
  let modules := listedModules catalog entry
  let table := (Gathered.ofNames catalog entry.modules).table
  (entry ∈ catalog.entries → modules.map (·.name) = entry.modules.eraseDups)
    ∧ inj.modules = modules.map (fun m =>
      { name := m.handle, moduleName := m.name, configure := m.configure })
    ∧ inj.bindings = firstOfEach (·.binding.key)
      (modules.flatMap fun m => m.bindings.map fun b => ⟨b, m.handle⟩)
    ∧ (∀ key, inj.binding? key
      = modules.findSome? fun m => (m.binding? key).map fun b => ⟨b, m.handle⟩)
    ∧ (inj.bindings.map (·.binding.key)).Nodup
    ∧ (∀ key i, table.place? key = some i
      ↔ ∃ b, inj.bindings[i]? = some b ∧ b.binding.key = key)
    ∧ (∀ key, inj.binding? key = (table.place? key).bind (inj.bindings[·]?))
    ∧ inj.interceptors = modules.flatMap (fun m => m.interceptors.map fun i => ⟨i, m.handle⟩)
    ∧ inj.classes = catalog.classes.map (fun c =>
      { decl := c
        scope := ((inj.bindings.reverse.find? (·.binding.className? = some c.name)).map
          (·.binding.scopeGiven)).getD .prototype
        selected := c.methods.map fun _ => [] })
    ∧ (∀ before m after key, modules = before ++ m :: after →
      (∃ earlier ∈ before, (earlier.binding? key).isSome) →
        ofEntry (catalog.unbind m.name key) options entry = inj)
    ∧ ∀ before name after, entry.modules = before ++ name :: after → name ∈ before →
      ofEntry catalog options { entry with modules := before ++ after }
        = { inj with entry := { entry with modules := before ++ after } }
  := by
  intro catalog inj modules table
  have wellFormed : catalog.WellFormed options.interceptorPrefix :=
    ((Registry.WellFormed.empty _).addAll declarations).close
  have held := (Gathered.comprises_ofNames catalog entry.modules).table
  have bindings : inj.bindings = flattenBindings modules := bindings_ofEntry catalog options entry
  refine ⟨map_name_listedModules wellFormed, modules_ofEntry catalog options entry, bindings, ?_,
    held.nodup, fun key i => held.place?_eq_some_iff, held.find?_rows,
    interceptors_ofEntry catalog options entry, ?_, ?_, ?_⟩
  · intro key
    rw [Injector.binding?, bindings, find?_flattenBindings]
  · rw [bindings]
    exact congrArg Injector.classes (ofEntry_eq catalog options entry)
  · rintro before m after key split ⟨earlier, member, bound⟩
    exact ofEntry_unbind split member bound
  · intro before name after split member
    exact ofEntry_relisted split member

/-- One of the two modules of the bazaar is listed twice. -/
def bazaar : EntryPoint where
  name := "bazaar"
  modules := ["Spice", "Cloth", "Spice"]

/-- Modules that bind one key. -/
def bazaarDeclarations : List Declaration :=
  [ .ofModule { name := "Spice", bindings := [{ key := "goods", source := .type "Saffron" }] },
    .ofModule
      { name := "Cloth"
        bindings :=
          [ { key := "goods", source := .type "Silk" },
            { key := "scales", source := .provider [] } ] },
    .ofEntry bazaar ]

/-- The second module's goods and the second listing of the first module do not count. -/
theorem modules_flattened_bazaar :
  let catalog := (Registry.addAll {} {} bazaarDeclarations >>= Registry.close).value
  bazaar ∈ catalog.entries
    ∧ catalog.unbind "Cloth" "goods" ≠ catalog
    ∧ ofEntry (catalog.unbind "Cloth" "goods") {} bazaar = ofEntry catalog {} bazaar
    ∧ ofEntry catalog {} { bazaar with modules := ["Spice", "Cloth"] }
      = { ofEntry catalog {} bazaar with entry := { bazaar with modules := ["Spice", "Cloth"] } }
  := by
  intro catalog
  obtain ⟨-, -, -, -, -, -, -, -, -, unbound, relisted⟩ :=
    modules_flattened {} bazaarDeclarations bazaar
  have listed : listedModules catalog bazaar
      = [ { name := "Spice"
            bindings := [{ key := "goods", source := .type "Saffron", owner := "Spice" }] } ]
        ++ { name := "Cloth"
             bindings :=
               [ { key := "goods", source := .type "Silk", owner := "Cloth" },
                 { key := "scales", source := .provider [], owner := "Cloth" } ] } :: [] := by
    decide +kernel
  refine ⟨by decide +kernel, by decide +kernel, ?_, ?_⟩
  · exact unbound _ _ _ "goods" listed ⟨_, List.mem_singleton_self _, by decide⟩
  · exact relisted ["Spice", "Cloth"] "Spice" [] rfl (by decide)

end Catalog

end Wiring
