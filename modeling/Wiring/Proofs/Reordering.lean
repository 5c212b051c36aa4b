import Wiring.Proofs.Catalog.Lineage
import Wiring.Proofs.Catalog.Registration
import Wiring.Proofs.Injector.Reordering
import Mathlib.Data.List.Perm.Basic

/-!
# The order of declarations

The order in which classes and modules are declared is of no consequence: programs that differ in
nothing else have the same plans, and the same diagnostics are reported for them, though in another
order (`plans_eq_of_reorders`).

Everything declared is found by its name, and names are distinct. The places of classes and modules
only decide in which order these are gone through for diagnostics.
-/

namespace Wiring

/-- By distinct keys the same is found in any order. -/
theorem find?_eq_of_perm {α : Type} (key : α → String) {xs ys : List α} (perm : xs.Perm ys)
    (distinct : (xs.map key).Nodup) (k : String) :
  ys.find? (key · = k) = xs.find? (key · = k)
  := by
  have distinct' : (ys.map key).Nodup := (perm.map key).nodup_iff.mp distinct
  apply Option.ext
  intro x
  rw [find?_eq_some_iff_of_nodup key distinct', find?_eq_some_iff_of_nodup key distinct,
    perm.mem_iff]

/-! ### Programs -/

/-- The programs have the same classes and the same modules, in whatever order, and the same entry
points. -/
structure Program.Reorders (d₁ d₂ : Program) : Prop where
  classes : d₁.classes.Perm d₂.classes
  modules : d₁.modules.Perm d₂.modules
  entries : d₁.entries = d₂.entries

/-- The catalogs have the same classes and the same modules, each of a name of its own and in
whatever order, and the same entry points. -/
structure Catalog.Reorders (catalog₁ catalog₂ : Catalog) : Prop where
  classes : catalog₁.classes.Perm catalog₂.classes
  modules : catalog₁.modules.Perm catalog₂.modules
  entries : catalog₁.entries = catalog₂.entries
  classNames : (catalog₁.classes.map (·.name)).Nodup
  moduleNames : (catalog₁.modules.map (·.name)).Nodup

namespace Program

open Registry

variable {d₁ d₂ : Program} (options : Options)

theorem Reorders.distinct (h : d₁.Reorders d₂) (distinct : d₁.Distinct) :
  d₂.Distinct
  where
  classes := (h.classes.map _).nodup_iff.mp distinct.classes
  modules := (h.modules.map _).nodup_iff.mp distinct.modules

/-- Whether a module is declared does not depend on the order. -/
theorem checkModules_eq_of_perm {xs ys : List OpenModule} (perm : xs.Perm ys) :
  checkModules { modules := xs } = checkModules { modules := ys }
  := by
  have declared (name : String) : (Registry.module? { modules := xs } name).isSome
      = (Registry.module? { modules := ys } name).isSome := by
    apply Bool.eq_iff_iff.mpr
    simp [Registry.module?, perm.mem_iff]
  have undeclared (name : String) : (Registry.module? { modules := xs } name).isNone
      = (Registry.module? { modules := ys } name).isNone := by
    rw [← Option.not_isSome, ← Option.not_isSome, declared]
  funext e
  simp only [checkModules, declared, undeclared]

/-- Registration gives catalogs with the same contents, and reports the same. -/
theorem Reorders.register (h : d₁.Reorders d₂) (distinct : d₁.Distinct) :
  (d₁.register options).value.Reorders (d₂.register options).value
    ∧ (d₁.register options).reports.Perm (d₂.register options).reports
  := by
  have wellFormed : (d₁.register options).value.WellFormed options.interceptorPrefix :=
    ((Registry.WellFormed.empty _).addAll d₁.all).close
  have opened : (d₁.modules.map fun decl => (openModule options decl).value).Perm
      (d₂.modules.map fun decl => (openModule options decl).value) := h.modules.map _
  have eq₁ := register_eq options distinct
  have eq₂ := register_eq options (h.distinct distinct)
  constructor
  · refine ⟨?_, ?_, ?_, wellFormed.classNames, wellFormed.moduleNames⟩
    · simpa [eq₁, eq₂] using h.classes.map fun c => (checkSetters (Registry.opened c)).value
    · simpa [eq₁, eq₂] using h.modules.map _
    · simp [eq₁, eq₂, h.entries, checkModules_eq_of_perm opened]
  · rw [eq₁, eq₂]
    simp only [Reported.reports_bind, Reported.value_mapM, Reported.reports_mapM,
      Reported.reports_pure, List.append_nil, h.entries, checkModules_eq_of_perm opened]
    apply (h.modules.flatMap_right _).append
    apply List.Perm.append_left
    apply List.Perm.append_right
    apply (h.classes.map _).flatMap_right

end Program

/-! ### Bases -/

namespace Bases

variable {classes classes' : List ClassDecl}

/-- The classes with a type among their bases are the same in any order. -/
theorem isSubclass_eq_of_perm (perm : classes.Perm classes')
    (distinct : (classes.map (·.name)).Nodup) :
  (ofClasses classes').isSubclass = (ofClasses classes).isSubclass
  := by
  have same : (ofClasses classes').base? = (ofClasses classes).base? := by
    funext name
    rw [base?_ofClasses, base?_ofClasses, find?_eq_of_perm _ perm distinct]
  funext c wanted
  rw [Bool.eq_iff_iff, isSubclass_iff_inLineage, isSubclass_iff_inLineage, InLineage, InLineage,
    same]

end Bases

/-! ### Catalogs -/

namespace Catalog.Reorders

open Injector

variable {catalog₁ catalog₂ : Catalog} (h : catalog₁.Reorders catalog₂) (options : Options)
  (entry : EntryPoint)

include h

theorem module?_eq (name : String) :
  catalog₂.module? name = catalog₁.module? name
  := find?_eq_of_perm _ h.modules h.moduleNames name

/-- Before interceptors are looked at, the injectors differ in the order of classes only. -/
theorem ofEntry_eq_withClasses :
  ofEntry catalog₂ options entry
    = (ofEntry catalog₁ options entry).withClasses (catalog₂.classes.map
      (plainClass (scopesAsked (ofEntry catalog₁ options entry).bindings)))
  := by
  have visit : Gathered.visit catalog₂ = Gathered.visit catalog₁ := by
    funext gathered name
    rw [Gathered.visit, Gathered.visit, h.module?_eq]
  rw [ofEntry, Gathered.ofNames, visit]
  rfl

variable [Dialect]

/-- The same interceptors select the same methods of a class. -/
theorem selectFor_eq (c : ManagedClass) :
  selectFor catalog₂.bases options.namespaceMode (ofEntry catalog₂ options entry) c
    = selectFor catalog₁.bases options.namespaceMode (ofEntry catalog₁ options entry) c
  := by
  have selects (s : ClassSelector) (c : ClassDecl) :
      s.selects catalog₂.bases options.namespaceMode c
        = s.selects catalog₁.bases options.namespaceMode c := by
    cases s with
    | subclassOf wanted =>
        have same := Bases.isSubclass_eq_of_perm h.classes h.classNames
        exact congrFun (congrFun same c) wanted
    | _ => rfl
  simp only [selectFor, hits, aimedAt, selects, h.ofEntry_eq_withClasses options entry]
  rfl

theorem reports_select :
  ((ofEntry catalog₁ options entry).select catalog₁ options.namespaceMode).reports.Perm
    ((ofEntry catalog₂ options entry).select catalog₂ options.namespaceMode).reports
  := by
  simp only [select_eq, Reported.reports_bind, Reported.reports_mapM, Reported.reports_pure,
    List.append_nil, h.selectFor_eq]
  rw [h.ofEntry_eq_withClasses options entry]
  apply (h.classes.map _).flatMap_right

/-- The injectors of an entry point differ in the order of their classes only. -/
theorem injector_eq_withClasses :
  catalog₂.injector options entry
    = (catalog₁.injector options entry).withClasses (catalog₂.injector options entry).classes
  := by
  have shape : catalog₂.injector options entry = (ofEntry catalog₂ options entry).withClasses
      (catalog₂.injector options entry).classes := rfl
  conv_lhs => rw [shape, h.ofEntry_eq_withClasses]
  rfl

theorem classes_injector :
  (catalog₁.injector options entry).classes.Perm (catalog₂.injector options entry).classes
  := by
  rw [injector, injector, classes_select, classes_select]
  simp only [h.selectFor_eq]
  rw [h.ofEntry_eq_withClasses options entry]
  apply (h.classes.map _).map

/-- Every entry point is planned alike. -/
theorem planEntry :
  (catalog₁.planEntry options entry).value = (catalog₂.planEntry options entry).value
    ∧ (catalog₁.planEntry options entry).reports.Perm (catalog₂.planEntry options entry).reports
  := by
  have injector := h.injector_eq_withClasses options entry
  have classes := h.classes_injector options entry
  have distinct : ((catalog₁.injector options entry).classes.map (·.name)).Nodup := by
    rw [Catalog.injector, classes_select]
    simpa [ofEntry, Function.comp_def, selectFor, plainClass, ManagedClass.name] using h.classNames
  have progress : catalog₂.progress options entry = catalog₁.progress options entry := by
    rw [Catalog.progress, injector, serve_withClasses _ classes.length_eq.symm, Catalog.progress]
    exact find?_eq_of_perm _ classes distinct
  constructor
  · have plan (catalog : Catalog) : (catalog.planEntry options entry).value
        = (catalog.injector options entry).plan (catalog.progress options entry) := rfl
    rw [plan, plan, progress, injector, plan_withClasses]
  · rw [reports_planEntry, reports_planEntry, progress]
    exact (h.reports_select options entry).append_right _

/-- All entry points are planned alike. -/
theorem planAll :
  (catalog₁.planAll options).value = (catalog₂.planAll options).value
    ∧ (catalog₁.planAll options).reports.Perm (catalog₂.planAll options).reports
  := by
  simp only [Catalog.planAll, Reported.value_bind, Reported.reports_bind, Reported.value_mapM,
    Reported.reports_mapM, Reported.value_pure, Reported.reports_pure, List.append_nil, h.entries]
  constructor
  · simp only [fun entry => (h.planEntry options entry).1]
  · apply List.Perm.flatMap_left
    intro entry _
    exact (h.planEntry options entry).2

end Catalog.Reorders

namespace Program

/-- Programs of distinct classes and modules that are declared in another order have the same plans.
What is reported of their declarations and of their plans is the same up to order. -/
theorem plans_eq_of_reorders [Dialect] (d₁ d₂ : Program) (options : Options)
    (distinct : d₁.Distinct) (reorders : d₁.Reorders d₂) :
  ((d₁.register options).value.planAll options).value
      = ((d₂.register options).value.planAll options).value
    ∧ (d₁.register options).reports.Perm (d₂.register options).reports
    ∧ ((d₁.register options).value.planAll options).reports.Perm
      ((d₂.register options).value.planAll options).reports
  := by
  obtain ⟨catalogs, registered⟩ := reorders.register options distinct
  obtain ⟨plans, reported⟩ := catalogs.planAll options
  exact ⟨plans, registered, reported⟩

/-- The program with its classes and its modules the other way round. -/
def backwards (d : Program) : Program :=
  { d with classes := d.classes.reverse, modules := d.modules.reverse }

/-- A ferry whose setter for the crew is missing, and a harbour that is not bound. -/
def crossing : Program where
  classes :=
    [ { name := "Ferry"
        params := ["engine", "harbour"]
        base := some "Boat"
        setters := ["crew"] },
      { name := "Boat", setters := ["crew"] },
      { name := "Engine" } ]
  modules :=
    [ { name := "Deck"
        interceptors :=
          [{ classSelector := .subclassOf "Boat", methodSelector := .any, body := "return 0;" }] },
      { name := "Hold"
        bindings := [{ key := "engine", source := .type "Engine", scope := some .singleton }] } ]
  entries :=
    [ { name := "main", modules := ["Deck", "Hold"], requests := [⟨.ofClass "Ferry", {}⟩] } ]

/-- Both setters are reported, first the one of whichever class is declared first. -/
theorem plans_eq_of_reorders_crossing :
  crossing.Distinct
    ∧ crossing.Reorders crossing.backwards
    ∧ (crossing.register {}).reports.length = 2
    ∧ ((crossing.register {}).value.planAll {}).value
      = ((crossing.backwards.register {}).value.planAll {}).value
  := by
  have distinct : crossing.Distinct := ⟨by decide, by decide⟩
  have reorders : crossing.Reorders crossing.backwards :=
    ⟨(List.reverse_perm _).symm, (List.reverse_perm _).symm, rfl⟩
  refine ⟨distinct, reorders, ?_, ?_⟩
  · decide +kernel
  · exact (plans_eq_of_reorders crossing crossing.backwards {} distinct reorders).1

end Program

end Wiring
