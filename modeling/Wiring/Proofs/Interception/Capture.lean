import Wiring.Proofs.Interception.Chain
import Wiring.Proofs.Resolution.Keeping

/-!
# Captured names

The body of an override speaks of things around it by their names: the function that copies its
arguments, the class, and the modules of the interceptors. The same names may be given to the
parameters of the method, by its author, and to the two variables of the body, by the options, and
nothing keeps them apart. A name leads inside the override to what it leads to around it exactly if
neither the name nor its first part is one of these (`reaches_iff`). So an override of a plan
captures exactly those of its outer names that begin with a parameter or with a variable of the body
(`Catalog.outerNames_reach_iff`).
-/

namespace Wiring

/-- The names of the variables inside an override. -/
def ownNames (options : Options) (params : List String) : List String :=
  options.interceptorThis :: options.interceptorArgs :: params

/-- The name leads inside every call of an override, before and after it keeps the receiver and the
arguments, to what it leads to around the override. -/
def Reaches (options : Options) (params : List String) (name : String) : Prop :=
  ∀ ⦃m : Type → Type⦄ [Monad m] ⦃V : Type⦄ (w : World m V) (locals : Locals V) (receiver : V)
    (args : List V) (list : V),
    w.resolve (w.entering options locals params args) name = w.resolve locals name
      ∧ w.resolve (w.inside options locals params receiver args list) name
        = w.resolve locals name

namespace World

variable {m : Type → Type} {V : Type} (w : World m V) {options : Options} {params : List String}

/-- A function binds its parameters. -/
theorem map_fst_bound (params : List String) (args : List V) :
  (w.bound params args).map Prod.fst = params.reverse
  := by
  induction params generalizing args with
  | nil => rfl
  | cons p params ih => rw [bound, List.map_append, ih, List.reverse_cons, List.map_singleton]

theorem snd_of_mem_bound_nil {params : List String} :
  ∀ p ∈ w.bound params [], p.2 = w.undefined
  := by
  induction params with
  | nil => simp [bound]
  | cons p params ih =>
      rw [bound, List.forall_mem_append, List.forall_mem_singleton]
      exact ⟨ih, rfl⟩

/-- What a call of an override adds to the variables around it. -/
theorem exists_entering_eq (options : Options) (locals : Locals V) (params : List String)
    (args : List V) :
  ∃ own : Locals V, w.entering options locals params args = own ++ locals
    ∧ ∀ n, n ∈ own.map Prod.fst ↔ n ∈ ownNames options params
  := by
  use w.bound params args
    ++ [(options.interceptorArgs, w.undefined), (options.interceptorThis, w.undefined)]
  constructor
  · simp [entering]
  · intro n
    simp only [List.map_append, map_fst_bound, ownNames, List.mem_append, List.mem_reverse,
      List.map_cons, List.map_nil, List.mem_cons, List.not_mem_nil, or_false]
    tauto

/-- Once the receiver and the arguments are kept, there are no variables of other names. -/
theorem exists_inside_eq (options : Options) (locals : Locals V) (params : List String)
    (receiver : V) (args : List V) (list : V) :
  ∃ own : Locals V, w.inside options locals params receiver args list = own ++ locals
    ∧ ∀ n, n ∈ own.map Prod.fst ↔ n ∈ ownNames options params
  := by
  obtain ⟨own, entering, names⟩ := w.exists_entering_eq options locals params args
  use (options.interceptorThis, receiver) :: (options.interceptorArgs, list) :: own
  constructor
  · rw [inside, entering]
    rfl
  · intro n
    rw [List.map_cons, List.map_cons, List.mem_cons, List.mem_cons, names]
    simp only [ownNames, List.mem_cons]
    tauto

theorem lookup_eq_none_iff {locals : Locals V} {name : String} :
  locals.lookup name = none ↔ name ∉ locals.map Prod.fst
  := by
  rw [List.lookup_eq_none_iff, List.mem_map]
  grind

/-- A name is read past variables of other names. -/
theorem resolve_append_of_not_mem [Monad m] {own locals : Locals V} {name : String}
    (whole : name ∉ own.map Prod.fst) (first : leading name ∉ own.map Prod.fst) :
  w.resolve (own ++ locals) name = w.resolve locals name
  := by
  simp only [resolve, lookUp, List.lookup_append, lookup_eq_none_iff.mpr whole,
    lookup_eq_none_iff.mpr first, Option.none_or]

/-! ### Telling apart what is inside and what is outside -/

/-- A world in which everything outside is true, and all that a function is given is false. -/
def outsideOnly : World Id Bool where
  null := false
  undefined := false
  text _ := false
  arguments _ := false
  isTruthy v := v
  newList _ := false
  newFunction _ := false
  source _ := false
  read _ := true
  write _ _ := ()
  property v _ := v
  call _ _ _ := false
  construct _ _ := false
  fault := false

theorem foldlM_property_outsideOnly (path : List String) (v : Bool) :
  path.foldlM outsideOnly.property v = v
  := by
  induction path with
  | nil => rfl
  | cons member path ih => apply ih

theorem resolve_outsideOnly_nil (name : String) :
  outsideOnly.resolve [] name = true
  := foldlM_property_outsideOnly _ true

/-- A name that begins with a variable of a function is not read outside. -/
theorem resolve_outsideOnly {locals : Locals Bool} {name : String}
    (inside : ∀ p ∈ locals, p.2 = false)
    (own : name ∈ locals.map Prod.fst ∨ leading name ∈ locals.map Prod.fst) :
  outsideOnly.resolve locals name = false
  := by
  have value : ∀ n v, locals.lookup n = some v → v = false := by
    intro n v h
    obtain ⟨before, after, rfl, -⟩ := List.lookup_eq_some_iff.mp h
    apply inside (n, v)
    apply List.mem_append_right _ List.mem_cons_self
  cases whole : locals.lookup name with
  | some v =>
      rw [resolve, whole, value name v whole]
      rfl
  | none =>
      have first := own.resolve_left (lookup_eq_none_iff.mp whole)
      cases found : locals.lookup (leading name) with
      | none => exact absurd first (lookup_eq_none_iff.mp found)
      | some v =>
          rw [resolve, whole, lookUp, found, value _ v found]
          apply foldlM_property_outsideOnly

end World

/-- A name reaches the outside of an override exactly if it begins with no variable inside. -/
theorem reaches_iff {options : Options} {params : List String} {name : String} :
  Reaches options params name
    ↔ name ∉ ownNames options params ∧ leading name ∉ ownNames options params
  := by
  constructor
  · intro reaches
    by_contra captured
    have eq := (reaches World.outsideOnly [] false [] false).1
    obtain ⟨own, entering, names⟩ := World.outsideOnly.exists_entering_eq options [] params []
    rw [World.resolve_outsideOnly_nil, World.resolve_outsideOnly] at eq
    · cases eq
    · -- a call without arguments leaves the parameters undefined
      rw [World.entering, List.forall_mem_append]
      use World.outsideOnly.snd_of_mem_bound_nil
      simp [World.outsideOnly]
    · rw [entering, List.append_nil, names, names]
      tauto
  · rintro ⟨whole, first⟩ m _ V w locals receiver args list
    constructor
    · obtain ⟨own, eq, names⟩ := w.exists_entering_eq options locals params args
      rw [← names] at whole first
      rw [eq, w.resolve_append_of_not_mem whole first]
    · obtain ⟨own, eq, names⟩ := w.exists_inside_eq options locals params receiver args list
      rw [← names] at whole first
      rw [eq, w.resolve_append_of_not_mem whole first]

/-! ### Runs -/

namespace Reaches

variable {m : Type → Type} [Monad m] {V : Type} {w : World m V}
variable {options : Options} {locals : Locals V} {params : List String} {receiver list : V}
  {args : List V}

theorem copied (h : Reaches options params "Array") :
  w.copied (w.entering options locals params args) args = w.copied locals args
  := by
  rw [World.copied, (h w locals w.undefined args w.undefined).1, World.copied]

theorem inherited {className methodName : String} (h : Reaches options params className) :
  w.inherited (w.inside options locals params receiver args list) className methodName receiver list
    = w.inherited locals className methodName receiver list
  := by
  rw [World.inherited, (h w locals receiver args list).2, World.inherited]

theorem offers {i : OwnedInterceptor} {module : V} {behaviour : Behaviour m V}
    (h : Reaches options params i.handle) (offers : w.Offers locals i module behaviour) :
  w.Offers (w.inside options locals params receiver args list) i module behaviour
  where
  holds := (h w locals receiver args list).2.trans offers.holds
  behaves := offers.behaves

end Reaches

/-- Called in any world where lists are copied in the usual way, the function runs the interceptors
that the modules around it offer around the method of the class around it. -/
def RunsAround (params : List String) (body : List Stmt) (className methodName : String)
    (interceptors : List OwnedInterceptor) : Prop :=
  ∀ ⦃m : Type → Type⦄ [Monad m] [LawfulMonad m] ⦃V : Type⦄ (w : World m V) (locals : Locals V)
    (module : OwnedInterceptor → V) (behaviour : OwnedInterceptor → Behaviour m V) (receiver : V)
    (args : List V),
    w.copied locals args = w.newList args →
    (∀ i ∈ interceptors, w.Offers locals i (module i) (behaviour i)) →
    (∀ i ∈ interceptors, w.isTruthy (module i)) →
    w.invoke locals params body receiver args
      = (do
        let list ← w.newList args
        around behaviour className methodName receiver list
          (w.inherited locals className methodName receiver list) interceptors)

/-- An override that reaches all that it speaks of runs the interceptors around the method. -/
theorem runsAround_overrideBody {options : Options} {params : List String} {className : String}
    {method : MethodDecl} {interceptors : List OwnedInterceptor}
    (apart : options.interceptorThis ≠ options.interceptorArgs)
    (reaches : ∀ n ∈ "Array" :: className :: interceptors.map (·.handle),
      Reaches options params n) :
  RunsAround params (overrideBody options className method interceptors) className method.name
    interceptors
  := by
  intro m _ _ V w locals module behaviour receiver args copies offers truthy
  simp only [List.forall_mem_cons, List.forall_mem_map] at reaches
  obtain ⟨array, base, modules⟩ := reaches
  apply invoke_of_eval_chain
  · rw [array.copied, copies]
  · intro list
    rw [← base.inherited (w := w)]
    apply eval_foldr_interceptorCall w w.lookup_this_inside (w.lookup_args_inside apart)
    · intro i hi
      apply Reaches.offers (modules i hi) (offers i hi)
    · exact truthy

/-! ### The names in a body -/

theorem name_mem_inheritedCall {options : Options} {className n : String} {method : MethodDecl} :
  .name n ∈ (Expr.inheritedCall options className method).visited
    ↔ n = className ∨ n = options.interceptorThis ∨ n = options.interceptorArgs
  := by
  simp [Expr.inheritedCall, Expr.visited]

/-- The call of an interceptor speaks of its module, the two variables of the body and what the rest
of the chain speaks of. -/
theorem name_mem_interceptorCall {options : Options} {className n : String} {method : MethodDecl}
    {guarded : Bool} {i : OwnedInterceptor} {next : Expr} :
  .name n ∈ (Expr.interceptorCall options className method guarded i (.delayed next)).visited
    ↔ n = i.handle ∨ n = options.interceptorThis ∨ n = options.interceptorArgs
      ∨ .name n ∈ next.visited
  := by
  cases guarded with
  | false => simp [Expr.interceptorCall, Expr.delayed, Expr.visited, Stmt.visitedAll, Stmt.visited]
  | true => simp [Expr.interceptorCall, Expr.delayed, Expr.visited, Stmt.visitedAll, Stmt.visited]

theorem name_mem_foldr_interceptorCall {options : Options} {className n : String}
    {method : MethodDecl} {guarded : Bool} {interceptors : List OwnedInterceptor} :
  .name n ∈ (interceptors.foldr
      (fun i next => Expr.interceptorCall options className method guarded i (.delayed next))
      (Expr.inheritedCall options className method)).visited
    ↔ (n = className ∨ n ∈ interceptors.map (·.handle)) ∨ n = options.interceptorThis
      ∨ n = options.interceptorArgs
  := by
  induction interceptors with
  | nil => simp [name_mem_inheritedCall]
  | cons i inner ih =>
      rw [List.foldr_cons, name_mem_interceptorCall, ih, List.map_cons, List.mem_cons]
      tauto

theorem name_mem_overrideBody {options : Options} {className n : String} {method : MethodDecl}
    {interceptors : List OwnedInterceptor} :
  .name n ∈ Stmt.visitedAll (overrideBody options className method interceptors)
    ↔ n ∈ "Array" :: className :: interceptors.map (·.handle) ∨ n = options.interceptorThis
      ∨ n = options.interceptorArgs
  := by
  simp only [overrideBody, Stmt.visitedAll, Stmt.visited, List.mem_append, Expr.chain,
    name_mem_foldr_interceptorCall]
  simp [Expr.visited, or_assoc]

namespace Catalog

open Injector

/-- The names that the override of a method speaks of things around it by: the function that copies
the arguments, the class, and the variables of the modules whose interceptors select the method. -/
def outerNames [Dialect] (catalog : Catalog) (options : Options) (entry : EntryPoint)
    (c : ClassDecl) (m : MethodDecl) : List String :=
  "Array" :: c.name :: (catalog.interceptorsOn options entry c m).map (·.handle)

/-- A subclass in a plan is that of a declared class with intercepted methods. -/
theorem exists_of_mem_subclasses [Dialect] {catalog : Catalog} {options : Options}
    {entry : EntryPoint} {s : InterceptingClass}
    (hs : s ∈ (catalog.planEntry options entry).value.subclasses) :
  ∃ c, (catalog.injector options entry).class? c.name = some c ∧ c.decl ∈ catalog.classes
    ∧ s = (catalog.injector options entry).interceptingClass c
  := by
  rw [subclasses_planEntry] at hs
  obtain ⟨c, declared, -, rfl⟩ := (catalog.woven_progress options entry).subclass s hs
  use c, declared, decl_mem_of_class? declared

/-- Every override in a plan is that of an intercepted method and has its parameters. It speaks of
its two variables and of its outer names, and one of these leads inside to what it leads to around
the override exactly if neither it nor its first part is a parameter or one of the two variables. If
that is so of all of them, and the two variables are not the same, the override runs the
interceptors of the modules around it around the method of the class around it. -/
theorem outerNames_reach_iff [Dialect] (catalog : Catalog) (options : Options) (entry : EntryPoint) :
  ∀ s ∈ (catalog.planEntry options entry).value.subclasses, ∃ c ∈ catalog.classes,
    s.base = c.name
      ∧ ∀ o ∈ s.methods, ∃ m ∈ c.methods, catalog.intercepts options entry c m = true
        ∧ o.name = m.name ∧ o.params = m.params
        ∧ (∀ n, .name n ∈ Stmt.visitedAll o.body
          ↔ n ∈ catalog.outerNames options entry c m ∨ n = options.interceptorThis
            ∨ n = options.interceptorArgs)
        ∧ (∀ n ∈ catalog.outerNames options entry c m,
          Reaches options o.params n
            ↔ n ∉ ownNames options o.params ∧ leading n ∉ ownNames options o.params)
        ∧ (options.interceptorThis ≠ options.interceptorArgs →
          (∀ n ∈ catalog.outerNames options entry c m,
            n ∉ ownNames options o.params ∧ leading n ∉ ownNames options o.params) →
          RunsAround o.params o.body c.name m.name (catalog.interceptorsOn options entry c m))
  := by
  intro s hs
  obtain ⟨c, declared, member, rfl⟩ := exists_of_mem_subclasses hs
  use c.decl, member, rfl
  intro o ho
  rw [interceptingClass, overrides_eq declared] at ho
  obtain ⟨m, hm, rfl⟩ := List.mem_map.mp ho
  obtain ⟨hm, intercepted⟩ := List.mem_filter.mp hm
  refine ⟨m, hm, intercepted, rfl, rfl, fun n => name_mem_overrideBody, fun n _ => reaches_iff, ?_⟩
  intro apart clear
  apply runsAround_overrideBody apart
  intro n hn
  apply reaches_iff.mpr (clear n hn)

/-- The subclass of the painter reaches all that it speaks of. -/
theorem outerNames_reach_gallery :
  ∃ s ∈ (gallery.planEntry {} vernissage).value.subclasses, ∃ c ∈ gallery.classes,
    s.base = c.name ∧ ∃ o ∈ s.methods, ∃ m ∈ c.methods, o.name = m.name
      ∧ (∀ n ∈ gallery.outerNames {} vernissage c m, Reaches {} o.params n)
      ∧ RunsAround o.params o.body c.name m.name (gallery.interceptorsOn {} vernissage c m)
  := by
  have overridden : ∃ s ∈ (gallery.planEntry {} vernissage).value.subclasses, s.methods ≠ [] := by
    rw [planEntry, ofEntry_eq]
    decide +kernel
  have clear : ∀ c ∈ gallery.classes, ∀ m ∈ c.methods,
      ∀ n ∈ gallery.outerNames {} vernissage c m,
        n ∉ ownNames {} m.params ∧ leading n ∉ ownNames {} m.params := by
    decide +kernel
  obtain ⟨s, hs, some⟩ := overridden
  obtain ⟨o, ho⟩ := List.exists_mem_of_ne_nil _ some
  obtain ⟨c, hc, base, methods⟩ := outerNames_reach_iff gallery {} vernissage s hs
  obtain ⟨m, hm, -, name, params, -, reaches, runs⟩ := methods o ho
  have clear := clear c hc m hm
  rw [← params] at clear
  use s, hs, c, hc, base, o, ho, m, hm, name
  constructor
  · intro n hn
    apply (reaches n hn).mpr (clear n hn)
  · apply runs (by decide) clear

/-- An entry point that is given a band to play to the beat. -/
def rehearsal : EntryPoint where
  name := "rehearsal"
  modules := ["Metronome"]
  requests := [⟨.ofClass "Band", {}⟩]

/-- A method with a parameter that is named like the variable of the module intercepting it. -/
def rehearsalDeclarations : List Declaration :=
  [ .ofClass { name := "Band", methods := [{ name := "play", params := ["metronome"] }] },
    .ofModule
      { name := "Metronome"
        interceptors :=
          [{ classSelector := .any, methodSelector := .any, body := "function(call) { }" }] },
    .ofEntry rehearsal ]

/-- The override of the method takes its argument for the module. -/
theorem captures_rehearsal :
  let catalog := (Registry.addAll {} {} rehearsalDeclarations >>= Registry.close).value
  rehearsal ∈ catalog.entries
    ∧ ∃ s ∈ (catalog.planEntry {} rehearsal).value.subclasses, ∃ c ∈ catalog.classes,
      s.base = c.name ∧ ∃ o ∈ s.methods, ∃ m ∈ c.methods, o.name = m.name
        ∧ "metronome" ∈ catalog.outerNames {} rehearsal c m
        ∧ .name "metronome" ∈ Stmt.visitedAll o.body ∧ "metronome" ∈ o.params
        ∧ ¬ Reaches {} o.params "metronome"
  := by
  intro catalog
  have captured : ∃ s ∈ (catalog.planEntry {} rehearsal).value.subclasses, ∃ c ∈ catalog.classes,
      s.base = c.name ∧ ∃ o ∈ s.methods, ∃ m ∈ c.methods, o.name = m.name
        ∧ "metronome" ∈ catalog.outerNames {} rehearsal c m
        ∧ .name "metronome" ∈ Stmt.visitedAll o.body ∧ "metronome" ∈ o.params := by
    rw [planEntry, ofEntry_eq]
    decide +kernel
  obtain ⟨s, hs, c, hc, base, o, ho, m, hm, name, outer, spoken, param⟩ := captured
  have own : "metronome" ∈ ownNames {} o.params := by simp [ownNames, param]
  use by decide +kernel, s, hs, c, hc, base, o, ho, m, hm, name, outer, spoken, param
  intro reaches
  apply (reaches_iff.mp reaches).1 own

end Catalog

end Wiring
