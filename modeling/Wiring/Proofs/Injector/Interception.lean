import Wiring.Proofs.Planning

/-!
# Intercepted methods

A method is intercepted for an entry point if its declarations agree and an interceptor of one of
the modules in use selects it. A class is constructed through a subclass exactly if some method of
it is intercepted (`isIntercepted_iff`), and it is the intercepted methods that the subclass
overrides, in their order and each with the interceptors that select it (`overrides_eq`). The
subclass has a name of its own, unless names of subclasses start with nothing
(`interceptingName_eq_iff`).
-/

namespace Wiring

/-- The method of the class is intercepted for the entry point. -/
def Catalog.intercepts [Dialect] (catalog : Catalog) (options : Options) (entry : EntryPoint)
    (c : ClassDecl) (m : MethodDecl) : Bool :=
  !m.ambiguous && (Injector.listedModules catalog entry).any fun module =>
    module.interceptors.any fun i =>
      i.classSelector.selects catalog.bases options.namespaceMode c && i.methodSelector.selects m

/-- The interceptors of the modules in use that select the method of the class, in their order. -/
def Catalog.interceptorsOn [Dialect] (catalog : Catalog) (options : Options)
    (entry : EntryPoint) (c : ClassDecl) (m : MethodDecl) : List OwnedInterceptor :=
  (Injector.flattenInterceptors (Injector.listedModules catalog entry)).filter fun i =>
    i.interceptor.classSelector.selects catalog.bases options.namespaceMode c
      && i.interceptor.methodSelector.selects m

namespace Injector

/-- Places that come with the elements of a list lead back to these. -/
theorem filterMap_getElem?_zipIdx {α : Type} (xs : List α) (test : α → Bool) :
  ((xs.zipIdx.filter fun x => test x.1).map (·.2)).filterMap (xs[·]?) = xs.filter test
  := by
  have found : ∀ x ∈ xs.zipIdx.filter (fun x => test x.1), xs[x.2]? = some x.1 := by
    intro x hx
    apply List.mem_zipIdx_iff_getElem?.mp (List.mem_of_mem_filter hx)
  calc ((xs.zipIdx.filter fun x => test x.1).map (·.2)).filterMap (xs[·]?)
    _ = (xs.zipIdx.filter fun x => test x.1).filterMap (fun x => some x.1) := by
      rw [List.filterMap_map]
      apply List.filterMap_congr found
    _ = (xs.zipIdx.map (·.1)).filter test := by
      rw [List.filterMap_eq_map', List.filter_map]
      rfl
    _ = xs.filter test := by rw [List.zipIdx_map_fst]

section

variable [Dialect] {catalog : Catalog} {options : Options} {entry : EntryPoint}

/-- A method is selected at some place exactly if it is intercepted. -/
theorem selectMethod_ne_nil_iff (catalog : Catalog) (options : Options) (entry : EntryPoint)
    (c : ClassDecl) (m : MethodDecl) :
  selectMethod ((ofEntry catalog options entry).aimedAt catalog.bases options.namespaceMode c) m
      ≠ []
    ↔ catalog.intercepts options entry c m = true
  := by
  let selects (i : OwnedInterceptor) : Bool :=
    i.interceptor.methodSelector.selects m
      && i.interceptor.classSelector.selects catalog.bases options.namespaceMode c
  have interceptors := interceptors_ofEntry catalog options entry
  have intercepts : catalog.intercepts options entry c m
      = (!m.ambiguous && (flattenInterceptors (listedModules catalog entry)).any selects) := by
    simp [Catalog.intercepts, flattenInterceptors, List.any_flatMap, List.any_map,
      Function.comp_def, selects, Bool.and_comm]
  rw [intercepts, ← List.zipIdx_map_fst 0 (flattenInterceptors _), List.any_map]
  cases ambiguous : m.ambiguous with
  | true => simp [selectMethod, ambiguous]
  | false => simp [selectMethod, ambiguous, selecting, aimedAt, interceptors, selects]

variable {c : ManagedClass}

/-- The places selected on the methods of a class. -/
theorem selected_eq (declared : (catalog.injector options entry).class? c.name = some c) :
  c.selected = c.decl.methods.map fun m => selectMethod
    ((ofEntry catalog options entry).aimedAt catalog.bases options.namespaceMode c.decl) m
  := by
  obtain ⟨decl, -, rfl⟩ := exists_of_class? declared
  exact selected_selectFor rfl

/-- A class is intercepted exactly if some method of it is. -/
theorem isIntercepted_iff (declared : (catalog.injector options entry).class? c.name = some c) :
  c.isIntercepted = true ↔ ∃ m ∈ c.decl.methods, catalog.intercepts options entry c.decl m = true
  := by
  simp only [← selectMethod_ne_nil_iff]
  obtain ⟨decl, -, rfl⟩ := exists_of_class? declared
  rw [isIntercepted_selectFor]
  · exact agreed_hits_ne_nil_iff
  · rfl

theorem interceptors_injector (catalog : Catalog) (options : Options) (entry : EntryPoint) :
  (catalog.injector options entry).interceptors = flattenInterceptors (listedModules catalog entry)
  := interceptors_ofEntry catalog options entry

/-- What stands at the places selected on a method are the interceptors that select it. -/
theorem interceptorsAt_selectMethod {c : ClassDecl} {m : MethodDecl} (agreed : m.ambiguous = false) :
  (catalog.injector options entry).interceptorsAt (selectMethod
      ((ofEntry catalog options entry).aimedAt catalog.bases options.namespaceMode c) m)
    = catalog.interceptorsOn options entry c m
  := by
  have interceptors := interceptors_ofEntry catalog options entry
  have selected : selectMethod
        ((ofEntry catalog options entry).aimedAt catalog.bases options.namespaceMode c) m
      = ((flattenInterceptors (listedModules catalog entry)).zipIdx.filter fun x =>
          x.1.interceptor.classSelector.selects catalog.bases options.namespaceMode c
            && x.1.interceptor.methodSelector.selects m).map (·.2) := by
    simp [selectMethod, agreed, selecting, aimedAt, interceptors, Bool.and_comm]
  rw [selected, interceptorsAt, interceptors_injector]
  exact filterMap_getElem?_zipIdx _ fun i : OwnedInterceptor =>
    i.interceptor.classSelector.selects catalog.bases options.namespaceMode c
      && i.interceptor.methodSelector.selects m

/-- The intercepted methods of a class are overridden, in their order, each with the interceptors
that select it. -/
theorem overrides_eq (declared : (catalog.injector options entry).class? c.name = some c) :
  (catalog.injector options entry).overrides c
    = (c.decl.methods.filter (catalog.intercepts options entry c.decl)).map fun m =>
      { name := m.name
        params := m.params
        body := overrideBody options c.name m (catalog.interceptorsOn options entry c.decl m) }
  := by
  rw [overrides, selected_eq declared, ← List.map_prod_left_eq_zip, List.filter_map, List.map_map]
  have selects : (fun m => decide (selectMethod
        ((ofEntry catalog options entry).aimedAt catalog.bases options.namespaceMode c.decl) m
          ≠ [] ∧ ¬ m.ambiguous))
      = catalog.intercepts options entry c.decl := by
    funext m
    apply Bool.eq_iff_iff.mpr
    rw [decide_eq_true_eq, selectMethod_ne_nil_iff]
    simp +contextual [Catalog.intercepts]
  rw [← selects]
  apply List.map_congr_left
  intro m hm
  have agreed : m.ambiguous = false := by
    have := (List.mem_filter.mp hm).2
    simp_all
  rw [← interceptorsAt_selectMethod agreed]
  rfl

/-- The intercepted methods of a class are overridden, in their order. -/
theorem map_overrides (declared : (catalog.injector options entry).class? c.name = some c) :
  ((catalog.injector options entry).overrides c).map (fun o => (o.name, o.params))
    = (c.decl.methods.filter (catalog.intercepts options entry c.decl)).map
      fun m => (m.name, m.params)
  := by
  rw [overrides_eq declared, List.map_map]
  rfl

end

/-! ### Names -/

/-- An identifier is no shorter than the name that it is made from. -/
theorem length_le_length_identifierOf (name : String) :
  name.length ≤ (identifierOf name).length
  := by
  have lowered (first : Char) : 1 ≤ (Text.lowerCase first).length := by
    unfold Text.lowerCase
    split <;> simp
  unfold identifierOf
  rw [← String.length_toList, ← String.length_toList, String.toList_ofList, List.length_map]
  cases name.toList with
  | nil => simp
  | cons first rest =>
      have := lowered first
      simp only [List.length_cons, List.length_append]
      omega

/-- A subclass has another name than its base, unless names of subclasses start with nothing and the
name of the base is an identifier already. -/
theorem interceptingName_eq_iff (inj : Injector) (className : String) :
  inj.interceptingName className = className
    ↔ inj.options.subclassPrefix = "" ∧ identifierOf className = className
  := by
  constructor
  · intro eq
    have length_eq : inj.options.subclassPrefix.length + (identifierOf className).length
        = className.length := by
      rw [← String.length_append]
      exact congrArg String.length eq
    have longer := length_le_length_identifierOf className
    have empty : inj.options.subclassPrefix = "" := by
      apply String.length_eq_zero_iff.mp
      omega
    use empty
    rwa [interceptingName, empty, String.empty_append] at eq
  · rintro ⟨empty, eq⟩
    rw [interceptingName, empty, String.empty_append, eq]

end Injector

end Wiring
