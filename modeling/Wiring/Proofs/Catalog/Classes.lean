import Wiring.Proofs.Catalog.Merging
import Wiring.Proofs.Catalog.Modules
import Mathlib.Data.List.TakeWhile

/-!
# Classes declared again

A class under registration is at any time merged from its declarations so far and from the methods that
came since the first one (`Registry.Merges`). So it is in the catalog, but for the setters that are no
methods (`Registry.class_merged`).
-/

namespace Wiring

/-! ### Declarations of a class -/

/-- The declaration of the class of a name. -/
def Declaration.classOf? (name : String) : Declaration → Option ClassDecl
  | .ofClass decl => if decl.name = name then some decl else none
  | _ => none

theorem Declaration.eq_of_classOf? {name : String} {d : Declaration} {decl : ClassDecl}
    (h : d.classOf? name = some decl) :
  d = .ofClass decl ∧ decl.name = name
  := by
  cases d with
  | ofClass other =>
      rw [classOf?] at h
      split at h
      · next same =>
          obtain rfl := Option.some.inj h
          exact ⟨rfl, same⟩
      · cases h
  | _ => cases h

/-- The methods that the declaration gives to the class of a name. -/
def Declaration.methodsOf (name : String) : Declaration → List MethodDecl
  | .ofClass decl => if decl.name = name then decl.methods else []
  | .ofMethod className m => if className = name then [m] else []
  | .ofModule _ => []
  | .ofEntry _ => []

/-- The declarations of the class of a name, in their order. -/
def classesOf (name : String) (declarations : List Declaration) : List ClassDecl :=
  declarations.filterMap (·.classOf? name)

/-- The methods of the class of a name, in the order in which they are declared, with the class or on
their own. Those that come before the first declaration of the class do not count. -/
def methodsOf (name : String) (declarations : List Declaration) : List MethodDecl :=
  (declarations.dropWhile fun d => (d.classOf? name).isNone).flatMap (·.methodsOf name)

section

variable {name : String} {declarations : List Declaration} {d : Declaration}

theorem classesOf_concat (name : String) (declarations : List Declaration) (d : Declaration) :
  classesOf name (declarations ++ [d]) = classesOf name declarations ++ (d.classOf? name).toList
  := by
  rw [classesOf, List.filterMap_append]
  cases h : d.classOf? name <;> simp [classesOf, h]

theorem dropWhile_eq_nil_iff :
  (declarations.dropWhile fun d => (d.classOf? name).isNone) = [] ↔ classesOf name declarations = []
  := by
  simp [List.dropWhile_eq_nil_iff, classesOf]

theorem name_of_head?_classesOf {first : ClassDecl}
    (h : (classesOf name declarations).head? = some first) :
  first.name = name
  := by
  obtain ⟨d, -, given⟩ := List.mem_filterMap.mp (List.mem_of_head? h)
  exact (Declaration.eq_of_classOf? given).2

theorem methodsOf_of_undeclared (h : classesOf name declarations = []) :
  methodsOf name declarations = []
  := by
  rw [methodsOf, dropWhile_eq_nil_iff.mpr h, List.flatMap_nil]

/-- Once the class is declared every further declaration counts. -/
theorem methodsOf_concat (h : classesOf name (declarations ++ [d]) ≠ []) :
  methodsOf name (declarations ++ [d]) = methodsOf name declarations ++ d.methodsOf name
  := by
  rw [methodsOf, List.dropWhile_append]
  split
  · next undeclared =>
      -- the declaration is the first one of the class
      have before := dropWhile_eq_nil_iff.mp (List.isEmpty_iff.mp undeclared)
      have first : [d].dropWhile (fun d => (d.classOf? name).isNone) = [d] := by
        rw [classesOf_concat, before, List.nil_append] at h
        apply List.dropWhile_cons_of_neg
        cases given : d.classOf? name <;> simp_all
      rw [first, methodsOf_of_undeclared before, List.flatMap_singleton, List.nil_append]
  · rw [List.flatMap_append, List.flatMap_singleton, methodsOf]

end

/-! ### Registries -/

namespace Registry

variable {r : Registry} {name : String}

theorem name_of_class? {c : ClassDecl} (h : r.class? name = some c) :
  c.name = name
  := by
  simpa using List.find?_some h

theorem class?_updateClass (r : Registry) (className name : String) {change : ClassDecl → ClassDecl}
    (names : ∀ c, (change c).name = c.name) :
  (r.updateClass className change).class? name
    = if className = name then (r.class? name).map change else r.class? name
  := by
  have changed : (r.updateClass className change).class? name
      = (r.class? name).map fun c => if c.name = className then change c else c :=
    find?_map_ite (fun c : ClassDecl => c.name) (fun c _ => names c) r.classes name
  rw [changed]
  cases known : r.class? name with
  | none => simp
  | some c => simp [name_of_class? known, eq_comm, apply_ite some]

theorem class?_addMethod (r : Registry) (className name : String) (m : MethodDecl) :
  (r.addMethod className m).value.class? name
    = if className = name then (r.class? name).map (·.addMethod m) else r.class? name
  := by
  unfold addMethod
  split
  · exact r.class?_updateClass className name fun c => c.name_addMethod m
  · next undeclared =>
      split
      · next same =>
          subst same
          rw [undeclared, Option.map_none]
          exact undeclared
      · rfl

theorem class?_addConstructor (r : Registry) (c : ClassDecl) (name : String) :
  (r.addConstructor c).value.class? name
    = if c.name = name then
        some (((r.class? name).map (·.merge c)).getD { c with methods := [] })
      else r.class? name
  := by
  unfold addConstructor
  split
  · next unknown =>
      rw [class?, List.find?_append]
      split
      · next same =>
          subst same
          have none : r.classes.find? (·.name = c.name) = none := unknown
          simp [none, unknown]
      · next ne => simp [ne, class?]
  · next held known =>
      have merged : (r.updateClass c.name (·.merge c)).class? name
          = if c.name = name then
              some (((r.class? name).map (·.merge c)).getD { c with methods := [] })
            else r.class? name := by
        rw [class?_updateClass r _ _ fun held => (held.merge_eq c).1]
        split
        · next same =>
            subst same
            rw [known, Option.map_some, Option.getD_some]
        · rfl
      -- whether there is something to report or not
      dsimp only
      split <;> exact merged

theorem classes_addModule (r : Registry) (options : Options) (decl : BindingModule) :
  (r.addModule options decl).value.classes = r.classes
  := by
  rw [addModule_eq]
  unfold putModule
  split <;> rfl

theorem classes_addEntry (r : Registry) (e : EntryPoint) :
  (r.addEntry e).value.classes = r.classes
  := by
  unfold addEntry
  dsimp only
  split <;> rfl

theorem class?_foldlM_addMethod (methods : List MethodDecl) (r : Registry) (className name : String) :
  (methods.foldlM (fun (r : Registry) m => r.addMethod className m) r).value.class? name
    = if className = name then (r.class? name).map fun c => methods.foldl ClassDecl.addMethod c
      else r.class? name
  := by
  induction methods generalizing r with
  | nil => simp
  | cons m methods ih =>
      rw [List.foldlM_cons, Reported.value_bind, ih, class?_addMethod]
      split
      · rw [Option.map_map]
        rfl
      · rfl

theorem class?_addClass (r : Registry) (c : ClassDecl) (name : String) :
  (r.addClass c).value.class? name
    = if c.name = name then
        some (c.methods.foldl ClassDecl.addMethod
          (((r.class? name).map (·.merge c)).getD { c with methods := [] }))
      else r.class? name
  := by
  rw [addClass, Reported.value_bind, class?_foldlM_addMethod, class?_addConstructor]
  split <;> rfl

section

variable {options : Options} {d : Declaration}

/-- A declaration adds its methods to a class that is declared elsewhere. -/
theorem class?_add_of_other (r : Registry) (h : d.classOf? name = none) :
  (r.add options d).value.class? name
    = (r.class? name).map fun c => (d.methodsOf name).foldl ClassDecl.addMethod c
  := by
  have same : (r.class? name).map (fun c => List.foldl ClassDecl.addMethod c []) = r.class? name := by
    cases r.class? name <;> rfl
  cases d with
  | ofClass decl =>
      have other : decl.name ≠ name := by
        intro eq
        simp [Declaration.classOf?, eq] at h
      rw [add, class?_addClass, if_neg other, Declaration.methodsOf, if_neg other, same]
  | ofMethod className m =>
      rw [add, class?_addMethod, Declaration.methodsOf]
      split
      · rfl
      · rw [same]
  | ofModule decl =>
      have classes : (r.add options (.ofModule decl)).value.classes = r.classes :=
        r.classes_addModule options decl
      rw [class?, classes, Declaration.methodsOf, same, class?]
  | ofEntry decl =>
      have classes : (r.add options (.ofEntry decl)).value.classes = r.classes :=
        r.classes_addEntry decl
      rw [class?, classes, Declaration.methodsOf, same, class?]

/-- The declaration of a class merges it, and adds its methods. -/
theorem class?_add_of_class (r : Registry) {decl : ClassDecl} (h : d.classOf? name = some decl) :
  (r.add options d).value.class? name
    = some ((d.methodsOf name).foldl ClassDecl.addMethod
      (((r.class? name).map (·.merge decl)).getD { decl with methods := [] }))
  := by
  obtain ⟨rfl, rfl⟩ := Declaration.eq_of_classOf? h
  rw [add, class?_addClass, if_pos rfl, Declaration.methodsOf, if_pos rfl]

end

/-- What is declared as the class of a name, with its setters unchecked. -/
def mergedOf (name : String) (declarations : List Declaration) : Option ClassDecl :=
  (classesOf name declarations).head?.map fun first =>
    first.merged (classesOf name declarations).tail (methodsOf name declarations)

/-- What is reported of the constructors of a class, of which all but one come later. -/
def constructorReports (name : String) (classes : List ClassDecl) : List Diagnostic :=
  classes.head?.toList.flatMap fun first =>
    (classes.tail.filter (first.params ≠ ·.params)).map fun decl =>
      ⟨.ambiguousConstructor name, decl.location⟩

/-- The classes under registration are merged from their declarations so far, and of each the
constructors that differ have been reported. -/
structure Merges (declarations : List Declaration) (r : Registry) (reports : List Diagnostic) :
    Prop where
  class? : ∀ name, r.class? name = mergedOf name declarations
  noted : ∀ name, reports.filter (·.problem = .ambiguousConstructor name)
    = constructorReports name (classesOf name declarations)

section

variable {options : Options} {declarations : List Declaration} {d : Declaration}

theorem mergedOf_concat_of_other (h : d.classOf? name = none) :
  mergedOf name (declarations ++ [d])
    = (mergedOf name declarations).map fun c => (d.methodsOf name).foldl ClassDecl.addMethod c
  := by
  have classes : classesOf name (declarations ++ [d]) = classesOf name declarations := by
    rw [classesOf_concat, h, Option.toList_none, List.append_nil]
  rw [mergedOf, mergedOf, Option.map_map, classes]
  apply Option.map_congr
  intro first head
  have declared : classesOf name (declarations ++ [d]) ≠ [] := by
    rw [classes]
    exact List.ne_nil_of_mem (List.mem_of_head? head)
  rw [Function.comp_apply, ClassDecl.foldl_addMethod_merged, methodsOf_concat declared]

theorem mergedOf_concat_of_class {decl : ClassDecl} (h : d.classOf? name = some decl) :
  mergedOf name (declarations ++ [d])
    = some ((d.methodsOf name).foldl ClassDecl.addMethod
      (((mergedOf name declarations).map (·.merge decl)).getD { decl with methods := [] }))
  := by
  have classes : classesOf name (declarations ++ [d]) = classesOf name declarations ++ [decl] := by
    rw [classesOf_concat, h, Option.toList_some]
  have methods : methodsOf name (declarations ++ [d])
      = methodsOf name declarations ++ d.methodsOf name := by
    apply methodsOf_concat
    rw [classes]
    apply List.concat_ne_nil
  rw [mergedOf, mergedOf, classes, methods]
  cases known : classesOf name declarations with
  | nil =>
      -- the first declaration of the class, with no methods before it
      simp only [List.nil_append, List.head?_cons, List.head?_nil, Option.map_some, Option.map_none,
        Option.getD_none, List.tail_cons, methodsOf_of_undeclared known]
      rw [← ClassDecl.merged_nil, ClassDecl.foldl_addMethod_merged, List.nil_append]
  | cons first later =>
      simp only [List.cons_append, List.head?_cons, Option.map_some, Option.getD_some,
        List.tail_cons]
      rw [ClassDecl.merge_merged, ClassDecl.foldl_addMethod_merged]

theorem constructorReports_concat (name : String) (classes : List ClassDecl) (decl : ClassDecl) :
  constructorReports name (classes ++ [decl])
    = constructorReports name classes
      ++ if ∃ first ∈ classes.head?, first.params ≠ decl.params then
          [⟨.ambiguousConstructor name, decl.location⟩] else []
  := by
  cases classes with
  | nil => rfl
  | cons first later =>
      by_cases same : first.params = decl.params <;>
        simp [constructorReports, List.filter_append, same]

/-- A constructor that differs from the one that stands is reported. -/
theorem filter_reports_addConstructor (r : Registry) (c : ClassDecl) (name : String) :
  (r.addConstructor c).reports.filter (·.problem = .ambiguousConstructor name)
    = if c.name = name ∧ ∃ held ∈ r.class? name, held.params ≠ c.params then
        [⟨.ambiguousConstructor name, c.location⟩] else []
  := by
  unfold addConstructor
  split
  · next unknown =>
      rw [if_neg]
      · rfl
      · rintro ⟨rfl, held, known, -⟩
        rw [unknown] at known
        cases known
  · next held known =>
      by_cases name : c.name = name
      · subst name
        rw [known]
        by_cases differ : held.params = c.params <;> simp [differ, Reported.one]
      · by_cases differ : held.params = c.params <;> simp [differ, name, Reported.one]

theorem filter_reports_add (r : Registry) (d : Declaration) (name : String) :
  (r.add options d).reports.filter (·.problem = .ambiguousConstructor name)
    = (d.classOf? name).toList.flatMap fun decl =>
      if ∃ held ∈ r.class? name, held.params ≠ decl.params then
        [⟨.ambiguousConstructor name, decl.location⟩] else []
  := by
  cases d with
  | ofClass decl =>
      have methods (r : Registry) : (decl.methods.foldlM (fun (r : Registry) m =>
          r.addMethod decl.name m) r).reports.filter (·.problem = .ambiguousConstructor name) = [] := by
        apply (about_methods r decl).filter_eq_nil
        intro d same
        simp [of_decide_eq_true same, Problem.subject]
      rw [add, addClass, Reported.reports_bind, List.filter_append, methods, List.append_nil,
        filter_reports_addConstructor, Declaration.classOf?]
      by_cases same : decl.name = name <;> simp [same]
  | _ =>
      apply (about_add options r _).filter_eq_nil
      intro d same
      simp [of_decide_eq_true same, Problem.subject, Declaration.subjects]

/-- A further declaration leaves the classes merged. -/
theorem Merges.add {reports : List Diagnostic} (h : r.Merges declarations reports)
    (d : Declaration) :
  (r.add options d).value.Merges (declarations ++ [d]) (reports ++ (r.add options d).reports)
  := by
  constructor
  · intro name
    cases given : d.classOf? name with
    | none => rw [class?_add_of_other r given, mergedOf_concat_of_other given, h.class?]
    | some decl => rw [class?_add_of_class r given, mergedOf_concat_of_class given, h.class?]
  · intro name
    rw [List.filter_append, h.noted, filter_reports_add, classesOf_concat]
    cases given : d.classOf? name with
    | none => simp
    | some decl =>
        have first : (∃ held ∈ r.class? name, held.params ≠ decl.params)
            ↔ ∃ first ∈ (classesOf name declarations).head?, first.params ≠ decl.params := by
          rw [h.class?, mergedOf]
          cases (classesOf name declarations).head? <;> simp [ClassDecl.merged]
        rw [Option.toList_some, List.flatMap_singleton, constructorReports_concat,
          if_congr first rfl rfl]

end

theorem merges_empty :
  Merges [] {} []
  where
  class? _ := rfl
  noted _ := rfl

theorem merges_addAll (options : Options) (declarations : List Declaration) :
  (addAll options {} declarations).value.Merges declarations
    (addAll options {} declarations).reports
  := by
  apply Reported.foldlM_accounts (P := Merges) _ declarations merges_empty
  intro seen r reports d h
  apply h.add

end Registry

/-! ### The catalog -/

/-- The problem is a setter of the class that is none of its methods. -/
def Problem.isMissingSetterOf (name : String) : Problem → Bool
  | .setterNotFound className _ => className = name
  | _ => false

theorem Problem.subject_of_isMissingSetterOf {name : String} {problem : Problem}
    (h : problem.isMissingSetterOf name = true) :
  problem.subject = .setter
  := by
  cases problem <;> first | rfl | cases h

namespace ClassDecl

theorem isSome_method?_merged {first : ClassDecl} {later : List ClassDecl}
    {methods : List MethodDecl} (name : String) :
  ((first.merged later methods).method? name).isSome = decide (name ∈ methods.map (·.name))
  := by
  have found : (first.merged later methods).method? name
      = (methods.find? (·.name = name)).map (marked methods) := find?_mergedMethods methods name
  rw [found, Option.isSome_map, Bool.eq_iff_iff]
  simp

end ClassDecl

namespace Registry

theorem class?_close (r : Registry) (name : String) :
  r.close.value.class? name = (r.class? name).map fun c => (checkSetters c).value
  := by
  have classes : r.close.value.classes = r.classes.map fun c => (checkSetters c).value := by
    simp [Registry.close]
  rw [Catalog.class?, classes, List.find?_map]
  rfl

/-- The setters of a merged class are checked against its methods. -/
theorem checkSetters_merged (first : ClassDecl) (later : List ClassDecl) (methods : List MethodDecl) :
  let setters := mergedSetters first.setters (later.flatMap (·.setters))
  checkSetters (first.merged later methods)
    = { value := { first.merged later methods with
          setters := setters.filter (· ∈ methods.map (·.name)) }
        reports := (setters.filter (· ∉ methods.map (·.name))).map fun setter =>
          ⟨.setterNotFound first.name setter, first.location⟩ }
  := by
  intro setters
  have missing (setter : String) : ((first.merged later methods).method? setter).isNone
      = decide (setter ∉ methods.map (·.name)) := by
    rw [← Option.not_isSome, ClassDecl.isSome_method?_merged, decide_not]
  simp only [checkSetters, ClassDecl.isSome_method?_merged, missing]
  rfl

theorem filter_reports_checkSetters (c : ClassDecl) (name : String) :
  (checkSetters c).reports.filter (·.problem.isMissingSetterOf name)
    = if c.name = name then (checkSetters c).reports else []
  := by
  by_cases same : c.name = name <;>
    simp [checkSetters, List.filter_map, Function.comp_def, Problem.isMissingSetterOf, same]

/-- At the end the setters of a class that are no methods are reported. -/
theorem filter_reports_close {stem : String} {r : Registry} (h : r.WellFormed stem) (name : String) :
  r.close.reports.filter (·.problem.isMissingSetterOf name)
    = (r.class? name).toList.flatMap fun c => (checkSetters c).reports
  := by
  have lists : (r.entries.mapM r.checkModules).reports.filter
      (·.problem.isMissingSetterOf name) = [] := by
    apply (Reported.about_mapM r.about_checkModules r.entries).filter_eq_nil
    intro d missing
    simp [Problem.subject_of_isMissingSetterOf missing]
  have reports : r.close.reports = (r.classes.mapM checkSetters).reports
      ++ (r.entries.mapM r.checkModules).reports := by simp [close]
  rw [reports, List.filter_append, lists, List.append_nil, Reported.reports_mapM,
    List.filter_flatMap]
  simp only [filter_reports_checkSetters]
  exact flatMap_ite_of_nodup (fun c : ClassDecl => c.name) h.classNames name _

/-- No setter is reported before the end. -/
theorem filter_setters_addAll (options : Options) (declarations : List Declaration) (name : String) :
  (addAll options {} declarations).reports.filter (·.problem.isMissingSetterOf name) = []
  := by
  have step (r : Registry) (d : Declaration) :
      (r.add options d).reports.filter (·.problem.isMissingSetterOf name) = [] := by
    apply (r.about_add options d).filter_eq_nil
    intro report missing
    rw [Problem.subject_of_isMissingSetterOf missing]
    cases d <;> simp [Declaration.subjects]
  rw [addAll, Reported.filter_reports_foldlM step]
  simp

/-- A class of the catalog has the constructor and the location of its first declaration and the first
base that one of them gives. Of its methods the first one of each name is kept, and is ambiguous if it
was declared so or if another one of the name has other parameters. The class is duplicated if it was
declared so or if a later constructor differs, and each one that does is reported. The setters are
those of the first declaration and behind them those added later, as far as they are methods; the
others are reported. -/
theorem class_merged (options : Options) (declarations : List Declaration) (name : String) :
  let registered := addAll options {} declarations >>= close
  let classes := classesOf name declarations
  let methods := methodsOf name declarations
  let added := classes.tail.flatMap (·.setters)
  registered.value.class? name = classes.head?.map (fun first =>
      { name
        params := first.params
        base := classes.findSome? (·.base)
        methods := (firstOfEach (·.name) methods).map fun m =>
          { m with ambiguous := m.ambiguous || Contradicted methods m }
        setters := (mergedSetters first.setters added).filter (· ∈ methods.map (·.name))
        duplicated := first.duplicated || classes.tail.any (first.params ≠ ·.params)
        location := first.location })
    ∧ registered.reports.filter (·.problem = .ambiguousConstructor name)
      = classes.head?.toList.flatMap (fun first =>
        (classes.tail.filter (first.params ≠ ·.params)).map fun decl =>
          ⟨.ambiguousConstructor name, decl.location⟩)
    ∧ registered.reports.filter (·.problem.isMissingSetterOf name)
      = classes.head?.toList.flatMap fun first =>
        ((mergedSetters first.setters added).filter (· ∉ methods.map (·.name))).map fun setter =>
          ⟨.setterNotFound name setter, first.location⟩
  := by
  intro registered classes methods added
  have merges := merges_addAll options declarations
  have wellFormed := (WellFormed.empty options.interceptorPrefix).addAll declarations
  refine ⟨?_, ?_, ?_⟩
  · rw [Reported.value_bind, class?_close, merges.class?, mergedOf, Option.map_map]
    apply Option.map_congr
    intro first head
    rw [Function.comp_apply, checkSetters_merged]
    simp only [ClassDecl.merged, name_of_head?_classesOf head, List.cons_head?_tail head]
    rfl
  · have closing : (addAll options {} declarations).value.close.reports.filter
        (·.problem = .ambiguousConstructor name) = [] := by
      apply (about_close _).filter_eq_nil
      intro d same
      simp [of_decide_eq_true same, Problem.subject]
    rw [Reported.reports_bind, List.filter_append, closing, List.append_nil, merges.noted,
      constructorReports]
  · rw [Reported.reports_bind, List.filter_append, filter_setters_addAll, List.nil_append,
      filter_reports_close wellFormed, merges.class?, mergedOf]
    cases head : (classesOf name declarations).head? with
    | none => rfl
    | some first =>
        simp only [Option.map_some, Option.toList_some, List.flatMap_singleton,
          checkSetters_merged, name_of_head?_classesOf head]
        rfl

end Registry

end Wiring
