import Wiring.Proofs.Catalog.Bindings

/-!
# Modules declared in pieces

What a catalog makes of a module depends on the bindings and interceptors that are declared for it,
one after the other, and not on how they are spread over its declarations
(`Registry.module_assembled`). While the declarations are gone through, every module is made of what
has been declared for it so far (`Registry.Assembles`).
-/

namespace Wiring

/-! ### Declarations of a module -/

/-- The declaration of a module. -/
def Declaration.module? : Declaration → Option BindingModule
  | .ofModule decl => some decl
  | _ => none

/-- The declarations of the module of a name, in their order. -/
def piecesOf (name : String) (declarations : List Declaration) : List BindingModule :=
  (declarations.filterMap Declaration.module?).filter (·.name = name)

theorem name_of_mem_piecesOf {name : String} {declarations : List Declaration}
    {piece : BindingModule} (h : piece ∈ piecesOf name declarations) :
  piece.name = name
  := by
  simpa using (List.mem_filter.mp h).2

/-- The faultless ones among the bindings of the pieces, in their order. -/
def bindingsOf (pieces : List BindingModule) : List Binding :=
  (pieces.flatMap (·.bindings)).filter (·.Faultless)

/-- The faultless ones among the interceptors of the pieces, in their order. -/
def interceptorsOf (pieces : List BindingModule) : List Interceptor :=
  (pieces.flatMap (·.interceptors)).filter (·.Faultless)

theorem bindingsOf_concat (pieces : List BindingModule) (decl : BindingModule) :
  bindingsOf (pieces ++ [decl]) = bindingsOf pieces ++ decl.bindings.filter (·.Faultless)
  := by
  simp [bindingsOf]

theorem interceptorsOf_concat (pieces : List BindingModule) (decl : BindingModule) :
  interceptorsOf (pieces ++ [decl])
    = interceptorsOf pieces ++ decl.interceptors.filter (·.Faultless)
  := by
  simp [interceptorsOf]

/-! ### Registries -/

namespace Registry

variable {r : Registry} {name : String}

theorem module?_putModule (r : Registry) (m : OpenModule) (name : String) :
  (r.putModule m).module? name = if m.decl.name = name then some m else r.module? name
  := by
  unfold putModule
  split
  · next held found =>
      have same : (r.modules.map fun held => if held.decl.name = m.decl.name then m else held).find?
            (·.decl.name = name)
          = (r.module? name).map fun held => if held.decl.name = m.decl.name then m else held :=
        find?_map_ite (fun held : OpenModule => held.decl.name) (fun _ eq => Eq.symm eq) _ _
      rw [module?, same]
      split
      · next eq =>
          have heldName : held.decl.name = m.decl.name := by simpa using List.find?_some found
          rw [← eq, found, Option.map_some, if_pos heldName]
      · next ne =>
          cases other : r.module? name with
          | none => rfl
          | some m' =>
              have otherName : m'.decl.name = name := by simpa using List.find?_some other
              rw [Option.map_some, if_neg (by rw [otherName]; exact Ne.symm ne)]
  · next unknown =>
      rw [module?, List.find?_append]
      split
      · next eq =>
          rw [← eq]
          have none : r.modules.find? (·.decl.name = m.decl.name) = none := unknown
          simp [none]
      · next ne => simp [ne, module?]

/-- The modules under registration are made of their declarations so far, and of each the bindings
that differ have been reported. -/
structure Assembles (stem : String) (declarations : List Declaration) (r : Registry)
    (reports : List Diagnostic) : Prop where
  undeclared : ∀ name, piecesOf name declarations = [] → r.module? name = none
  declared : ∀ name first, (piecesOf name declarations).head? = some first →
    ∃ m, r.module? name = some m ∧ m.Assembles stem first
      (bindingsOf (piecesOf name declarations)) (interceptorsOf (piecesOf name declarations))
  noted : ∀ name, Noted name (bindingsOf (piecesOf name declarations)) reports

variable {stem : String} {declarations : List Declaration} {reports : List Diagnostic}

theorem assembles_empty (stem : String) :
  Assembles stem [] {} []
  where
  undeclared _ _ := rfl
  declared _ _ h := by simp [piecesOf] at h
  noted _ _ := rfl

/-- A declaration of another sort leaves the modules alone. -/
theorem Assembles.of_other (h : r.Assembles stem declarations reports) {d : Declaration}
    (other : d.module? = none) {r' : Registry} (modules : r'.modules = r.modules)
    {more : List Diagnostic}
    (others : ∀ name key, more.filter (·.problem = .ambiguousBinding name key) = []) :
  r'.Assembles stem (declarations ++ [d]) (reports ++ more)
  := by
  have pieces (name : String) : piecesOf name (declarations ++ [d]) = piecesOf name declarations := by
    simp [piecesOf, other]
  have module? (name : String) : r'.module? name = r.module? name := by
    rw [Registry.module?, modules, Registry.module?]
  constructor
  · intro name
    rw [pieces, module?]
    apply h.undeclared
  · intro name
    rw [pieces, module?]
    apply h.declared
  · intro name
    rw [pieces]
    exact (h.noted name).append (others name)

/-- What a declaration of a module extends. -/
def begun (r : Registry) (decl : BindingModule) : OpenModule :=
  (r.module? decl.name).getD { decl := { decl with bindings := [], interceptors := [] } }

theorem addModule_eq (options : Options) (r : Registry) (decl : BindingModule) :
  r.addModule options decl
    = { value := r.putModule ((r.begun decl).extend options.interceptorPrefix decl).value
        reports := ((r.begun decl).extend options.interceptorPrefix decl).reports }
  := congrArg (Reported.mk _) (List.append_nil _)

/-- What a declaration of a module extends is made of the declarations of that module before. -/
theorem Assembles.begun (h : r.Assembles stem declarations reports) (decl : BindingModule) :
  ∃ first, (piecesOf decl.name declarations ++ [decl]).head? = some first
    ∧ first.name = decl.name
    ∧ (r.begun decl).Assembles stem first (bindingsOf (piecesOf decl.name declarations))
      (interceptorsOf (piecesOf decl.name declarations))
  := by
  cases known : piecesOf decl.name declarations with
  | nil =>
      refine ⟨decl, rfl, rfl, ?_⟩
      rw [Registry.begun, h.undeclared _ known, Option.getD_none]
      apply OpenModule.assembles_empty
  | cons first rest =>
      obtain ⟨m, found, assembles⟩ := h.declared decl.name first (by rw [known, List.head?_cons])
      have member : first ∈ piecesOf decl.name declarations := by
        rw [known]
        apply List.mem_cons_self
      refine ⟨first, rfl, name_of_mem_piecesOf member, ?_⟩
      rwa [Registry.begun, found, Option.getD_some, ← known]

theorem piecesOf_concat (name : String) (declarations : List Declaration) (decl : BindingModule) :
  piecesOf name (declarations ++ [.ofModule decl])
    = if decl.name = name then piecesOf name declarations ++ [decl] else piecesOf name declarations
  := by
  by_cases same : decl.name = name <;> simp [piecesOf, Declaration.module?, same]

/-- A declaration of a module extends what its declarations before have made of it. -/
theorem Assembles.addModule {options : Options}
    (h : r.Assembles options.interceptorPrefix declarations reports) (decl : BindingModule) :
  (r.addModule options decl).value.Assembles options.interceptorPrefix
    (declarations ++ [.ofModule decl]) (reports ++ (r.addModule options decl).reports)
  := by
  obtain ⟨first, head, name, started⟩ := h.begun decl
  have noted : Noted first.name (bindingsOf (piecesOf decl.name declarations)) reports := by
    rw [name]
    exact h.noted decl.name
  obtain ⟨extended, noted⟩ := started.extend noted decl
  have extendedName : ((r.begun decl).extend options.interceptorPrefix decl).value.decl.name
      = decl.name := by rw [extended.decl, assembled, name]
  rw [addModule_eq]
  constructor
  · intro other none
    rw [piecesOf_concat] at none
    rw [module?_putModule, extendedName]
    by_cases same : decl.name = other
    · simp [same] at none
    · rw [if_neg same] at none ⊢
      apply h.undeclared other none
  · intro other first' head'
    rw [piecesOf_concat] at head' ⊢
    rw [module?_putModule, extendedName]
    by_cases same : decl.name = other
    · subst same
      rw [if_pos rfl] at head' ⊢
      rw [if_pos rfl, bindingsOf_concat, interceptorsOf_concat]
      obtain rfl := Option.some.inj (head.symm.trans head')
      exact ⟨_, rfl, extended⟩
    · rw [if_neg same] at head' ⊢
      rw [if_neg same]
      apply h.declared other first' head'
  · intro other
    rw [piecesOf_concat]
    by_cases same : decl.name = other
    · subst same
      rw [if_pos rfl, bindingsOf_concat]
      rwa [name] at noted
    · rw [if_neg same]
      apply (h.noted other).append
      apply started.filter_reports_extend decl
      rwa [name]

theorem modules_addMethod (r : Registry) (className : String) (m : MethodDecl) :
  (r.addMethod className m).value.modules = r.modules
  := by
  unfold addMethod
  split <;> rfl

theorem modules_addConstructor (r : Registry) (c : ClassDecl) :
  (r.addConstructor c).value.modules = r.modules
  := by
  unfold addConstructor
  split
  · rfl
  · dsimp only
    split <;> rfl

theorem modules_addClass (r : Registry) (c : ClassDecl) :
  (r.addClass c).value.modules = r.modules
  := by
  unfold addClass
  rw [Reported.value_bind]
  apply Reported.foldlM_keeps (P := fun r' : Registry => r'.modules = r.modules)
  · intro r' m same
    rw [modules_addMethod, same]
  · apply modules_addConstructor

section

variable {options : Options} {d : Declaration}

theorem modules_add_of_other (r : Registry) (other : d.module? = none) :
  (r.add options d).value.modules = r.modules
  := by
  cases d with
  | ofClass decl => apply r.modules_addClass
  | ofMethod className decl => apply r.modules_addMethod
  | ofModule decl => cases other
  | ofEntry decl =>
      unfold Registry.add addEntry
      dsimp only
      split <;> rfl

/-- Nothing but a module has a problem of a binding. -/
theorem binding_notMem_subjects (other : d.module? = none) :
  .binding ∉ d.subjects
  := by
  cases d with
  | ofModule decl => cases other
  | _ => simp [Declaration.subjects]

/-- A further declaration leaves the modules made of their declarations. -/
theorem Assembles.add (h : r.Assembles options.interceptorPrefix declarations reports)
    (d : Declaration) :
  (r.add options d).value.Assembles options.interceptorPrefix (declarations ++ [d])
    (reports ++ (r.add options d).reports)
  := by
  cases module : d.module? with
  | some decl =>
      obtain rfl : d = .ofModule decl := by
        cases d <;> simp_all [Declaration.module?]
      apply h.addModule
  | none =>
      apply h.of_other module (r.modules_add_of_other module)
      intro name key
      apply (r.about_add options d).filter_eq_nil
      intro report same
      rw [of_decide_eq_true same, Problem.subject]
      exact binding_notMem_subjects module

end

theorem assembles_addAll (options : Options) (declarations : List Declaration) :
  (addAll options {} declarations).value.Assembles options.interceptorPrefix declarations
    (addAll options {} declarations).reports
  := by
  have run := Reported.foldlM_accounts (P := Assembles options.interceptorPrefix)
    (fun seen r reports d (h : r.Assembles _ seen reports) => h.add d) declarations
    (assembles_empty options.interceptorPrefix)
  exact run

/-- What a module is under registration. -/
theorem Assembles.decl_eq (h : r.Assembles stem declarations reports) (name : String) :
  (r.module? name).map (·.decl)
    = (piecesOf name declarations).head?.map fun first =>
      assembled stem first (bindingsOf (piecesOf name declarations))
        (interceptorsOf (piecesOf name declarations))
  := by
  cases head : (piecesOf name declarations).head? with
  | none => rw [h.undeclared name (List.head?_eq_none_iff.mp head), Option.map_none, Option.map_none]
  | some first =>
      obtain ⟨m, found, assembles⟩ := h.declared name first head
      rw [found, Option.map_some, assembles.decl, Option.map_some]

/-- What a module binds to a key under registration. -/
theorem Assembles.binding?_eq (h : r.Assembles stem declarations reports) (name key : String) :
  (r.module? name).bind (·.decl.binding? key)
    = if AgreeOn (bindingsOf (piecesOf name declarations)) key then
        ((bindingsOf (piecesOf name declarations)).find? (·.key = key)).map
          fun b => { b with owner := name }
      else none
  := by
  cases head : (piecesOf name declarations).head? with
  | none =>
      have none := List.head?_eq_none_iff.mp head
      rw [h.undeclared name none, none]
      simp [bindingsOf]
  | some first =>
      obtain ⟨m, found, assembles⟩ := h.declared name first head
      rw [found, Option.bind_some, assembles.binding?_eq,
        name_of_mem_piecesOf (List.mem_of_head? head)]

end Registry

/-! ### Faulty bindings -/

/-- What is reported of those among the bindings that are not faultless. -/
def complaints (bindings : List Binding) : List Diagnostic :=
  (bindings.filter fun b => ¬ b.Faultless).map Binding.complaint

theorem complaints_append (xs ys : List Binding) :
  complaints (xs ++ ys) = complaints xs ++ complaints ys
  := by
  rw [complaints, List.filter_append, List.map_append, complaints, complaints]

theorem flatMap_complaints (bindings : List Binding) :
  (bindings.flatMap fun b => complaints [b]) = complaints bindings
  := by
  induction bindings with
  | nil => rfl
  | cons b bindings ih => rw [List.flatMap_cons, ih, ← complaints_append, List.singleton_append]

theorem Problem.subject_of_isBindingFault {problem : Problem} (h : problem.isBindingFault = true) :
  problem.subject = .binding
  := by
  cases problem <;> first | rfl | cases h

namespace OpenModule

theorem filter_faults_addBinding (m : OpenModule) (b : Binding) :
  (m.addBinding b).reports.filter (·.problem.isBindingFault) = complaints [b]
  := by
  by_cases faultless : b.Faultless
  · -- whatever else there is to report is an ambiguity
    have none : complaints [b] = [] := by simp [complaints, faultless]
    rw [none, addBinding, b.fault?_owned, Binding.fault?_eq_none_iff.mpr faultless]
    dsimp only
    split
    · rfl
    · split
      · rfl
      · split <;> rfl
  · have one : complaints [b] = [b.complaint] := by simp [complaints, faultless]
    rw [addBinding_of_faulty faultless, one, List.filter_singleton, b.isBindingFault_complaint,
      cond_true]

theorem filter_faults_extend (stem : String) (m : OpenModule) (decl : BindingModule) :
  (m.extend stem decl).reports.filter (·.problem.isBindingFault) = complaints decl.bindings
  := by
  have interceptors (m : OpenModule) :
      (decl.interceptors.foldlM (addInterceptor stem) m).reports.filter
        (·.problem.isBindingFault) = [] := by
    apply (Reported.about_foldlM (about_addInterceptor stem) _ _).filter_eq_nil
    intro d fault
    simp [Problem.subject_of_isBindingFault fault]
  rw [extend, Reported.reports_bind, List.filter_append, interceptors, List.append_nil,
    Reported.filter_reports_foldlM filter_faults_addBinding, flatMap_complaints]

end OpenModule

namespace Registry

/-- Of every declared binding that is not faultless its fault is reported, when it comes. -/
theorem filter_faults_addAll (options : Options) (declarations : List Declaration) :
  (addAll options {} declarations).reports.filter (·.problem.isBindingFault)
    = complaints ((declarations.filterMap Declaration.module?).flatMap (·.bindings))
  := by
  have step (r : Registry) (d : Declaration) :
      (r.add options d).reports.filter (·.problem.isBindingFault)
        = complaints (d.module?.toList.flatMap (·.bindings)) := by
    cases d with
    | ofModule decl =>
        rw [add, addModule_eq, OpenModule.filter_faults_extend]
        simp [Declaration.module?]
    | _ =>
        apply (r.about_add options _).filter_eq_nil
        intro report fault
        rw [Problem.subject_of_isBindingFault fault]
        exact binding_notMem_subjects rfl
  rw [addAll, Reported.filter_reports_foldlM step]
  induction declarations with
  | nil => rfl
  | cons d declarations ih =>
      rw [List.flatMap_cons, ih, ← complaints_append, ← List.flatMap_append]
      cases module : d.module? <;> simp [module]

/-! ### The catalog -/

theorem module?_close (r : Registry) (name : String) :
  r.close.value.module? name = (r.module? name).map (·.decl)
  := by
  have modules : r.close.value.modules = r.modules.map (·.decl) := by simp [Registry.close]
  rw [Catalog.module?, modules, List.find?_map]
  rfl

/-- A module of the catalog is made of the bindings and the interceptors of all its declarations, and
has the set-up method and the location of the first one. Of the faultless bindings of a key the first
one is bound, unless they differ; then the first one that differs is reported, once. Every faulty
binding is reported once. -/
theorem module_assembled (options : Options) (declarations : List Declaration) (name : String) :
  let registered := addAll options {} declarations >>= close
  let pieces := piecesOf name declarations
  let bindings := bindingsOf pieces
  registered.value.module? name = pieces.head?.map (fun first =>
      { name
        bindings := ((firstOfEach (·.key) bindings).filter fun b => AgreeOn bindings b.key).map
          fun b => { b with owner := name }
        interceptors := (interceptorsOf pieces).mapIdx fun n i =>
          { i with owner := name, name := options.interceptorPrefix ++ toString n }
        configure := first.configure
        location := first.location })
    ∧ (∀ key, (registered.value.module? name).bind (·.binding? key)
      = if AgreeOn bindings key then
          (bindings.find? (·.key = key)).map fun b => { b with owner := name }
        else none)
    ∧ (∀ key, registered.reports.filter (·.problem = .ambiguousBinding name key)
      = (dissenter? bindings key).toList.map fun b => ⟨.ambiguousBinding name key, b.location⟩)
    ∧ (∀ key, dissenter? bindings key = none ↔ AgreeOn bindings key)
    ∧ registered.reports.filter (·.problem.isBindingFault)
      = (((declarations.filterMap Declaration.module?).flatMap (·.bindings)).filter
        fun b => ¬ b.Faultless).map Binding.complaint
  := by
  intro registered pieces bindings
  have assembles := assembles_addAll options declarations
  have closed (test : Diagnostic → Bool)
      (about : ∀ d, test d = true → d.problem.subject = .binding) :
      registered.reports.filter test = (addAll options {} declarations).reports.filter test := by
    rw [Reported.reports_bind, List.filter_append, (about_close _).filter_eq_nil, List.append_nil]
    intro d passes
    simp [about d passes]
  refine ⟨?_, ?_, ?_, fun key => dissenter?_eq_none_iff, ?_⟩
  · rw [Reported.value_bind, module?_close, assembles.decl_eq]
    apply Option.map_congr
    intro first head
    rw [assembled, name_of_mem_piecesOf (List.mem_of_head? head), settled]
  · intro key
    rw [Reported.value_bind, module?_close, Option.bind_map]
    exact assembles.binding?_eq name key
  · intro key
    rw [closed, assembles.noted name key]
    intro d same
    rw [of_decide_eq_true same, Problem.subject]
  · rw [closed, filter_faults_addAll, complaints]
    intro d fault
    exact Problem.subject_of_isBindingFault fault

end Registry

end Wiring
