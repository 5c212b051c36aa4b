import Wiring.Proofs.Catalog.WellFormed

/-!
# Registration of distinct declarations

Where no class and no module is declared twice nothing has to be merged, and registration treats
every declaration on its own: a class or a module becomes one of the catalog, in the order of the
declarations (`Program.register_eq`), and whatever is wrong with it is reported without regard to
the others.
-/

namespace Wiring

/-- No class and no module is declared twice. -/
structure Program.Distinct (d : Program) : Prop where
  classes : (d.classes.map (·.name)).Nodup
  modules : (d.modules.map (·.name)).Nodup

namespace Registry

variable {options : Options} {r : Registry}

/-! ### Classes -/

/-- What becomes of the declaration of a class that is not declared again, up to its setters. -/
def opened (c : ClassDecl) : ClassDecl :=
  c.methods.foldl ClassDecl.addMethod { c with methods := [] }

theorem name_foldl_addMethod (methods : List MethodDecl) (c : ClassDecl) :
  (methods.foldl ClassDecl.addMethod c).name = c.name
  := by
  induction methods generalizing c with
  | nil => rfl
  | cons m methods ih => rw [List.foldl_cons, ih, c.name_addMethod]

theorem name_opened (c : ClassDecl) :
  (opened c).name = c.name
  := name_foldl_addMethod c.methods _

/-- A method goes to the last class, if no other one has the name. -/
theorem addMethod_last {c : ClassDecl} (new : ∀ other ∈ r.classes, other.name ≠ c.name)
    (m : MethodDecl) :
  ({ r with classes := r.classes ++ [c] } : Registry).addMethod c.name m
    = pure { r with classes := r.classes ++ [c.addMethod m] }
  := by
  have others : r.classes.map
      (fun other => if other.name = c.name then other.addMethod m else other) = r.classes := by
    conv_rhs => rw [← List.map_id r.classes]
    apply List.map_congr_left
    intro other member
    exact if_neg (new other member)
  have found : ({ r with classes := r.classes ++ [c] } : Registry).class? c.name = some c := by
    have none : r.classes.find? (·.name = c.name) = none := by simpa using new
    simp [class?, List.find?_append, none]
  simp only [Registry.addMethod, found, updateClass, List.map_append, others]
  simp
  rfl

theorem foldlM_addMethod_last (methods : List MethodDecl) {c : ClassDecl}
    (new : ∀ other ∈ r.classes, other.name ≠ c.name) :
  methods.foldlM (fun r m => r.addMethod c.name m) { r with classes := r.classes ++ [c] }
    = pure { r with classes := r.classes ++ [methods.foldl ClassDecl.addMethod c] }
  := by
  induction methods generalizing c with
  | nil => rfl
  | cons m methods ih =>
      have name := c.name_addMethod m
      rw [List.foldlM_cons, addMethod_last new, pure_bind, ← name, List.foldl_cons]
      apply ih
      rwa [name]

/-- A class of a new name goes to the end, with nothing to report. -/
theorem addClass_new {c : ClassDecl} (new : ∀ other ∈ r.classes, other.name ≠ c.name) :
  r.addClass c = pure { r with classes := r.classes ++ [opened c] }
  := by
  have unknown : r.class? c.name = none := by simpa [class?] using new
  rw [Registry.addClass, addConstructor, unknown]
  exact foldlM_addMethod_last (r := r) c.methods (c := { c with methods := [] }) new

theorem addAll_classes (classes : List ClassDecl)
    (distinct : (r.classes.map (·.name) ++ classes.map (·.name)).Nodup) :
  r.addAll options (classes.map .ofClass)
    = pure { r with classes := r.classes ++ classes.map opened }
  := by
  induction classes generalizing r with
  | nil => simp [addAll]
  | cons c classes ih =>
      have new : ∀ other ∈ r.classes, other.name ≠ c.name := by
        intro other member eq
        apply (List.nodup_append.mp distinct).2.2 other.name (List.mem_map_of_mem member) c.name
          List.mem_cons_self eq
      have step : r.addAll options ((c :: classes).map .ofClass)
          = r.addClass c >>= fun r => r.addAll options (classes.map .ofClass) := rfl
      rw [step, addClass_new new, pure_bind, ih]
      · simp
      · simpa [name_opened] using distinct

/-! ### Modules -/

/-- What becomes of the declaration of a module that is not declared again. -/
def openModule (options : Options) (decl : BindingModule) : Reported OpenModule :=
  OpenModule.extend options.interceptorPrefix
    { decl := { decl with bindings := [], interceptors := [] } } decl

theorem name_openModule (options : Options) (decl : BindingModule) :
  (openModule options decl).value.decl.name = decl.name
  := by
  have empty : BindingModule.WellFormed options.interceptorPrefix
      { decl with bindings := [], interceptors := [] } := OpenModule.wellFormed_empty decl
  exact (OpenModule.continues_extend (m := ⟨_, _⟩) decl empty).1

/-- A module of a new name goes to the end. -/
theorem addModule_new {decl : BindingModule} (new : ∀ m ∈ r.modules, m.decl.name ≠ decl.name) :
  r.addModule options decl
    = openModule options decl >>= fun m => pure { r with modules := r.modules ++ [m] }
  := by
  have unknown : ∀ name, name = decl.name → r.module? name = none := by
    rintro name rfl
    simpa [module?] using new
  have put : r.putModule (openModule options decl).value
      = { r with modules := r.modules ++ [(openModule options decl).value] } := by
    rw [putModule, unknown _ (name_openModule options decl)]
  have held : r.addModule options decl
      = openModule options decl >>= fun m => pure (r.putModule m) := by
    rw [addModule, unknown _ rfl]
    rfl
  rw [held]
  exact congrArg (fun value => Reported.mk value ((openModule options decl).reports ++ [])) put

theorem addAll_modules (modules : List BindingModule)
    (distinct : (r.modules.map (·.decl.name) ++ modules.map (·.name)).Nodup) :
  r.addAll options (modules.map .ofModule)
    = modules.mapM (openModule options) >>= fun opened =>
      pure { r with modules := r.modules ++ opened }
  := by
  induction modules generalizing r with
  | nil => simp [addAll]
  | cons decl modules ih =>
      have new : ∀ m ∈ r.modules, m.decl.name ≠ decl.name := by
        intro m member eq
        apply (List.nodup_append.mp distinct).2.2 m.decl.name (List.mem_map_of_mem member) decl.name
          List.mem_cons_self eq
      have step : r.addAll options ((decl :: modules).map .ofModule)
          = r.addModule options decl >>= fun r => r.addAll options (modules.map .ofModule) := rfl
      rw [step, addModule_new new, List.mapM_cons]
      simp only [pure_bind, bind_assoc]
      apply Reported.bind_congr_value
      rw [ih]
      · simp
      · simpa [name_openModule] using distinct

/-! ### Entry points -/

/-- What becomes of the declaration of an entry point, up to the modules that it lists. -/
def listed (e : EntryPoint) : Reported EntryPoint := do
  if e.modules = [] then
    Reported.one (.emptyModuleList e.name) e.location
  return e

theorem addAll_entries (entries : List EntryPoint) :
  r.addAll options (entries.map .ofEntry)
    = entries.mapM listed >>= fun entries => pure { r with entries := r.entries ++ entries }
  := by
  induction entries generalizing r with
  | nil => simp [addAll]
  | cons e entries ih =>
      have step : r.addAll options ((e :: entries).map .ofEntry)
          = r.addEntry e >>= fun r => r.addAll options (entries.map .ofEntry) := rfl
      have added : r.addEntry e
          = listed e >>= fun e => pure { r with entries := r.entries ++ [e] } := by
        unfold addEntry listed
        split <;> rfl
      rw [step, added]
      simp [ih]

theorem addAll_append (xs ys : List Declaration) :
  r.addAll options (xs ++ ys) = r.addAll options xs >>= fun r => r.addAll options ys
  := List.foldlM_append

end Registry

namespace Program

open Registry

/-- Where nothing is declared twice, every declaration is registered on its own. -/
theorem register_eq {d : Program} (options : Options) (distinct : d.Distinct) :
  d.register options
    = (do
      let modules ← d.modules.mapM (openModule options)
      let entries ← d.entries.mapM listed
      let classes ← (d.classes.map opened).mapM checkSetters
      let entries ← entries.mapM (checkModules { modules })
      return { classes, modules := modules.map (·.decl), entries })
  := by
  have classes : Registry.addAll options {} (d.classes.map .ofClass)
      = pure { classes := d.classes.map opened } := by
    simpa using @addAll_classes options {} d.classes (by simpa using distinct.classes)
  rw [register, all, addAll_append, addAll_append, classes, pure_bind, addAll_modules]
  · simp only [bind_assoc, pure_bind, addAll_entries, close, List.nil_append]
    rfl
  · simpa using distinct.modules

end Program

end Wiring
