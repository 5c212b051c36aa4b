import Wiring.Proofs.Resolution.Keeping
import Wiring.Proofs.Resolution.Origin
import Wiring.Proofs.Resolution.Placement

/-!
# Guarded construction

A shared object is constructed by an expression that first asks whether its variable holds it
already, wherever that expression has come to stand (`Expr.Guarded`). While the object is
constructed its class cannot be resolved again, so nothing inside the construction assigns the
variable once more (`Resolves.assignments_eq`). An eager object is constructed by its own statement
and nowhere else. So there is no other assignment to the variables of objects
(`singletons_guarded`).
-/

namespace Wiring

/-- The expression in a statement. -/
def Stmt.value : Stmt → Expr
  | .declare _ value => value
  | .evaluate value => value
  | .result value => value

/-- All assignments to the variable inside the expression are guarded: the variable is assigned by
what is evaluated only if it holds nothing, at the head of that and nowhere else inside of it. -/
inductive Expr.Guarded (v : String) : Expr → Prop where
  /-- The variable is not assigned. -/
  | free {e} (none : Expr.assignments v [e] = 0) : Guarded v e
  /-- The variable is assigned unless it holds something. -/
  | once {value alternate} (starts : Expr.StartsWith (.assign v value) alternate)
    (single : Expr.assignments v [alternate] = 1) : Guarded v (.once v alternate)
  | member {object property} (inside : Guarded v object) : Guarded v (.member object property)
  | new {className args} (inside : ∀ e ∈ args, Guarded v e) : Guarded v (.new className args)
  | call {callee args} (called : Guarded v callee) (inside : ∀ e ∈ args, Guarded v e) :
    Guarded v (.call callee args)
  | assign {target value} (ne : target ≠ v) (inside : Guarded v value) :
    Guarded v (.assign target value)
  | sequence {items} (inside : ∀ e ∈ items, Guarded v e) : Guarded v (.sequence items)
  | conditional {test consequent alternate} (asked : Guarded v test) (left : Guarded v consequent)
    (right : Guarded v alternate) : Guarded v (.conditional test consequent alternate)
  | and {left right} (first : Guarded v left) (second : Guarded v right) :
    Guarded v (.and left right)
  | function {params body} (inside : ∀ s ∈ body, Guarded v s.value) :
    Guarded v (.function params body)

namespace Expr.Guarded

variable {v : String} {e : Expr} {args calls : List Expr}

theorem null :
  Guarded v .null
  := free (assignments_null)

theorem name (name : String) :
  Guarded v (.name name)
  := free (assignments_name name)

theorem delayed (h : e.Guarded v) :
  e.delayed.Guarded v
  := by
  apply function
  intro s member
  obtain rfl := List.mem_singleton.mp member
  exact h

/-- Another variable may be assigned as well. -/
theorem once_of_guarded (target : String) (h : e.Guarded v) :
  (Expr.once target e).Guarded v
  := conditional (name target) (name target) h

theorem callMember (object property : String) (h : ∀ e ∈ args, e.Guarded v) :
  (Expr.call (.member (.name object) property) args).Guarded v
  := call (member (name object)) h

theorem assignedTo {target : Option String} {className : String} (ne : target.toList.count v = 0)
    (h : ∀ e ∈ args, e.Guarded v) :
  (Expr.assignedTo target (.new className args)).Guarded v
  := by
  cases target with
  | none => exact new h
  | some target =>
      apply assign _ (new h)
      rintro rfl
      simp at ne

theorem withSetters {target className : String} (ne : target ≠ v) (h : ∀ e ∈ args, e.Guarded v)
    (h' : ∀ e ∈ calls, e.Guarded v) :
  (Expr.sequence (.assign target (.new className args) :: calls ++ [.name target])).Guarded v
  := by
  apply sequence
  intro e member
  simp only [List.cons_append, List.mem_cons, List.mem_append, List.not_mem_nil, or_false]
    at member
  obtain rfl | member | rfl := member
  · apply assign ne (new h)
  · apply h' e member
  · apply name

end Expr.Guarded

namespace Injector

open Progress

variable {inj : Injector} {site : Site} {task : Task} {p p' q : Progress} {es : List Expr}
  {className v : String}

/-! ### One assignment -/

section

variable (cycles : inj.options.detectCycles = true) (values : inj.AssignFree)
  (temporaries : ∀ n : Nat, inj.options.instancePrefix ++ toString n ≠ v)

include cycles values temporaries

/-- The object of an eager class is constructed by a statement, and the object of a class under
construction is not constructed again. So what gives the expressions of a task assigns the variable
of such a class only if the task is to assign it. -/
theorem Resolves.assignments_eq (h : inj.Resolves site task p es p') (valid : p.Valid inj)
    (owns : p'.Owns className v)
    (away : inj.IsEager className ∨ .ofClass className ∈ task.entered ++ site.trail) :
  Expr.assignments v es = given v task
  := by
  induction h with
  | value bound => apply values.assignments_eq bound
  | @heldLazily site c p s e p' declared fresh held lazy creation ih =>
      have owns' : p'.Owns className v := owns.of_grows (grows_setLazy _ _ _)
      have own : p.Owns className v :=
        owns'.of_grows ((grows_addSubclass _ _ _).trans creation.grows)
      have other : s.name ≠ v := by
        intro eq
        obtain rfl := (own _ s held).mp eq
        obtain eager | inside := away
        · obtain ⟨d, declared', scope⟩ := eager
          obtain ⟨d', declared'', heldBy⟩ := valid.heldBy held
          obtain rfl := Option.some.inj (declared'.symm.trans declared'')
          cases scope.symm.trans (heldBy.lazy lazy)
        · apply not_mem_of_fresh cycles fresh inside
      have later : inj.IsEager className
          ∨ .ofClass className ∈ (Task.creation c (some s.name)).entered ++ site.trail :=
        away.imp id (List.mem_append_right _)
      rw [Expr.assignments_once, ih (valid.addSubclass c) owns' later]
      simp [given, other]
  | @prototype site c _ _ _ _ _ _ _ _ ih =>
      have later : inj.IsEager className
          ∨ .ofClass className ∈ (Task.creation c none).entered ++ site.trail :=
        away.imp id (List.mem_append_right _)
      apply ih (valid.addSubclass c) owns later
  | @singleton site c p e p' declared fresh unheld scope creation ih =>
      have other : p.nextSingleton inj.options ≠ v := by
        intro eq
        obtain rfl := (owns_takeSingleton unheld creation owns).mp eq
        obtain ⟨d, declared', scope'⟩ | inside := away
        · obtain rfl := Option.some.inj (declared.symm.trans declared')
          cases scope.symm.trans scope'
        · apply not_mem_of_fresh cycles fresh inside
      have valid' := valid.takeShared declared unheld scope p.isDeferred
      have later : inj.IsEager className ∨ .ofClass className
          ∈ (Task.creation c (some (p.nextSingleton inj.options))).entered ++ site.trail :=
        away.imp id (List.mem_append_right _)
      rw [Expr.assignments_once, ih valid' owns later]
      simp [given, other]
  | provided _ ih => apply ih valid owns away
  | providerFunction _ ih =>
      rw [Expr.assignments_delayed]
      apply ih valid.defer (owns.of_grows (grows_resume _)) away
  | call _ _ _ _ ih =>
      rw [Expr.assignments_callMember]
      apply ih valid owns (away.imp id _)
      intro inside
      apply List.mem_append_right _ (List.mem_cons_of_mem _ inside)
  | creation _ _ _ ih =>
      rw [Expr.assignments_assignedTo, ih valid owns away]
      apply Nat.zero_add
  | @creationWithSetters _ _ _ _ _ p₁ _ _ _ _ parameters setters ih₁ ih₂ =>
      have owns' := owns.of_grows ((grows_hold _ _ _).trans setters.grows)
      rw [List.cons_append, Expr.assignments_withSetters, ih₁ valid owns' away,
        ih₂ ((parameters.valid valid).hold _) owns away, count_holder temporaries]
      apply Nat.zero_add
  | parameter first rest ih₁ ih₂ =>
      rw [Expr.assignments_cons, ih₁ valid (owns.of_grows rest.grows) away,
        ih₂ (first.valid valid) owns away]
      rfl
  | setter first rest ih₁ ih₂ =>
      rw [Expr.assignments_cons, Expr.assignments_callMember,
        ih₁ valid (owns.of_grows rest.grows) away, ih₂ (first.valid valid) owns away]
      rfl
  | _ => rfl

/-- What constructs the object of a class for its variable assigns that once, and first. -/
theorem Resolves.guarded_once {c : ManagedClass} {e : Expr}
    (h : inj.Resolves site (.creation c (some v)) p [e] p') (valid : p.Valid inj)
    (owns : p'.Owns c.name v) :
  (Expr.once v e).Guarded v
  := by
  obtain ⟨args, starts⟩ := h.startsWith_assign
  apply Expr.Guarded.once starts
  rw [h.assignments_eq cycles values temporaries valid owns (.inr List.mem_cons_self)]
  simp [given]

/-- What resolution gives assigns the variable of a shared object nowhere but under its guard. -/
theorem Resolves.guarded (shared : ∃ c, inj.class? className = some c ∧ c.scope = .singleton)
    (h : inj.Resolves site task p es p') (valid : p.Valid inj) (owns : p'.Owns className v)
    (other : given v task = 0) :
  ∀ e ∈ es, e.Guarded v
  := by
  induction h with
  | value bound =>
      rw [List.forall_mem_singleton]
      apply Expr.Guarded.free (values.assignments_eq bound)
  | @heldLazily _ c p s e p' _ _ held _ creation ih =>
      have owns' : p'.Owns className v := owns.of_grows (grows_setLazy _ _ _)
      have own : p.Owns className v :=
        owns'.of_grows ((grows_addSubclass _ _ _).trans creation.grows)
      rw [List.forall_mem_singleton]
      by_cases eq : s.name = v
      · obtain rfl := (own _ s held).mp eq
        obtain rfl := eq
        apply creation.guarded_once cycles values temporaries (valid.addSubclass c) owns'
      · apply Expr.Guarded.once_of_guarded
        apply ih (valid.addSubclass c) owns' _ _ List.mem_cons_self
        simp [given, eq]
  | @prototype _ c _ _ _ _ _ _ _ _ ih => apply ih (valid.addSubclass c) owns rfl
  | @singleton _ c p e p' declared _ unheld scope creation ih =>
      have valid' := valid.takeShared declared unheld scope p.isDeferred
      rw [List.forall_mem_singleton]
      by_cases eq : p.nextSingleton inj.options = v
      · obtain rfl := (owns_takeSingleton unheld creation owns).mp eq
        obtain rfl := eq
        apply creation.guarded_once cycles values temporaries valid' owns
      · apply Expr.Guarded.once_of_guarded
        apply ih valid' owns _ _ List.mem_cons_self
        simp [given, eq]
  | provided _ ih => apply ih valid owns rfl
  | providerFunction _ ih =>
      rw [List.forall_mem_singleton]
      apply Expr.Guarded.delayed
      apply ih valid.defer (owns.of_grows (grows_resume _)) rfl _ List.mem_cons_self
  | call _ _ _ _ ih =>
      rw [List.forall_mem_singleton]
      apply Expr.Guarded.callMember
      apply ih valid owns rfl
  | creation _ _ _ ih =>
      rw [List.forall_mem_singleton]
      apply Expr.Guarded.assignedTo other
      apply ih valid owns rfl
  | @creationWithSetters _ _ target _ _ p₁ _ _ _ _ parameters setters ih₁ ih₂ =>
      have owns' := owns.of_grows ((grows_hold _ _ _).trans setters.grows)
      have ne : p₁.holder inj.options target ≠ v := by
        intro eq
        have holds : [p₁.holder inj.options target].count v = 0 := by
          rw [count_holder temporaries]
          exact other
        simp [eq] at holds
      rw [List.forall_mem_singleton]
      apply Expr.Guarded.withSetters ne
      · apply ih₁ valid owns' rfl
      · apply ih₂ ((parameters.valid valid).hold _) owns rfl
  | parameter first rest ih₁ ih₂ =>
      rw [List.forall_mem_cons]
      constructor
      · apply ih₁ valid (owns.of_grows rest.grows) rfl _ List.mem_cons_self
      · apply ih₂ (first.valid valid) owns rfl
  | setter first rest ih₁ ih₂ =>
      rw [List.forall_mem_cons]
      constructor
      · apply Expr.Guarded.callMember
        apply ih₁ valid (owns.of_grows rest.grows) rfl
      · apply ih₂ (first.valid valid) owns rfl
  | noParameters => simp
  | noSetters => simp
  | held _ _ _ _ => exact List.forall_mem_singleton.mpr (.name _)
  | eagerSingleton _ _ _ _ _ _ => exact List.forall_mem_singleton.mpr (.name _)
  | _ => exact List.forall_mem_singleton.mpr .null

/-- A statement assigns the variable of an eager object if it constructs that object. -/
theorem Origin.assignments_eq {starts : Step → Prop} {s : PlanStatement}
    (h : inj.Origin starts q s) (owns : q.Owns className v) (eager : inj.IsEager className) :
  Expr.assignments v [s.value] = s.constructed?.toList.count className
  := by
  cases h with
  | @construct site c target _ p e p' _ _ _ _ valid held creation grows =>
      have owns' : p'.Owns className v := owns.of_grows grows
      have own : target = v ↔ c.name = className := owns'.of_grows creation.grows _ _ held
      rw [PlanStatement.value, creation.assignments_eq cycles values temporaries valid owns'
        (.inl eager)]
      simp [given, PlanStatement.constructed?, List.count_singleton, own]
  | answer valid resolution grows =>
      apply resolution.assignments_eq cycles values temporaries valid (owns.of_grows grows)
        (.inl eager)

/-- A statement assigns the variable of a shared object nowhere but under its guard. -/
theorem Origin.guarded {starts : Step → Prop} {s : PlanStatement} (h : inj.Origin starts q s)
    (owns : q.Owns className v) (shared : ∃ c, inj.class? className = some c ∧ c.scope = .singleton) :
  s.value.Guarded v
  := by
  cases h with
  | @construct site c target _ p e p' declared scope _ _ valid held creation grows =>
      have owns' : p'.Owns className v := owns.of_grows grows
      have own : target = v ↔ c.name = className := owns'.of_grows creation.grows _ _ held
      have ne : target ≠ v := by
        intro eq
        obtain rfl := own.mp eq
        obtain ⟨d, declared', scope'⟩ := shared
        obtain rfl := Option.some.inj (declared.symm.trans declared')
        cases scope.symm.trans scope'
      apply creation.guarded cycles values temporaries shared valid owns' _ _ List.mem_cons_self
      simp [given, ne]
  | answer valid resolution grows =>
      apply resolution.guarded cycles values temporaries shared valid (owns.of_grows grows) rfl _
        List.mem_cons_self

end

end Injector

/-! ### Subclasses -/

/-- The code of a subclass, that of its constructor and of its overrides. -/
def InterceptingClass.code (subclass : InterceptingClass) : List Stmt :=
  subclass.constructor ++ subclass.methods.flatMap (·.body)

section

variable {v : String}

theorem Expr.assignments_interceptorCall (options : Options) (className : String) (m : MethodDecl)
    (guarded : Bool) (i : OwnedInterceptor) (proceed : Expr) :
  Expr.assignments v [.interceptorCall options className m guarded i proceed]
    = Expr.assignments v [proceed]
  := by
  cases guarded <;> simp [interceptorCall, assignments, visited, assigns]

/-- An override assigns nothing. -/
theorem assignments_overrideBody (options : Options) (className : String) (m : MethodDecl)
    (interceptors : List OwnedInterceptor) :
  ∀ s ∈ overrideBody options className m interceptors, Expr.assignments v [s.value] = 0
  := by
  have chain (guarded : Bool) : Expr.assignments v [interceptors.foldr
      (fun i next => .interceptorCall options className m guarded i (.delayed next))
      (.inheritedCall options className m)] = 0 := by
    induction interceptors with
    | nil => simp [Expr.inheritedCall, Expr.assignments, Expr.visited, Expr.assigns]
    | cons i interceptors ih =>
        rw [List.foldr_cons, Expr.assignments_interceptorCall, Expr.assignments_delayed, ih]
  simp only [overrideBody, List.forall_mem_cons, Stmt.value, Expr.chain]
  refine ⟨?_, rfl, chain _, by simp⟩
  simp [Expr.assignments, Expr.visited, Expr.assigns]

/-- The code of a subclass assigns nothing. -/
theorem Injector.assignments_code (inj : Injector) (c : ManagedClass) :
  ∀ s ∈ (inj.interceptingClass c).code, Expr.assignments v [s.value] = 0
  := by
  intro s member
  obtain member | member := List.mem_append.mp member
  · obtain rfl := List.mem_singleton.mp member
    have names (params : List String) : Expr.assignments v (params.map .name) = 0 := by
      induction params with
      | nil => rfl
      | cons _ _ ih => rw [List.map_cons, Expr.assignments_cons, ih, Expr.assignments_name]
    simpa [Stmt.value, Expr.assignments, Expr.visited, Expr.assigns] using names c.decl.params
  · obtain ⟨override, made, member⟩ := List.mem_flatMap.mp member
    obtain ⟨_, _, rfl⟩ := List.mem_map.mp made
    apply assignments_overrideBody _ _ _ _ s member

end

/-! ### Whole plans -/

/-- If statements assign a variable as they construct the objects of a class, then so does the
plan. -/
theorem Plan.countP_assigns_eq {plan : Plan} {className v : String}
    (each : ∀ s ∈ plan.statements,
      Expr.assignments v [s.value] = s.constructed?.toList.count className) :
  plan.nodes.countP (Expr.assigns v) = plan.constructionOrder.count className
  := by
  rw [nodes, constructionOrder, List.filterMap_eq_flatMap_toList, List.countP_flatMap,
    List.count_flatMap]
  congr 1
  apply List.map_congr_left
  intro s member
  simpa [Expr.assignments] using each s member

namespace Catalog

open Injector Progress

/-- Every statement of a plan has an origin. -/
theorem origin_of_mem_statements [Dialect] {options : Options} (catalog : Catalog)
    (entry : EntryPoint) (cycles : options.detectCycles = true) {s : PlanStatement}
    (member : s ∈ (catalog.planEntry options entry).value.statements) :
  (catalog.injector options entry).Origin
    (fun step => ∃ e ∈ (catalog.injector options entry).errands,
      (catalog.injector options entry).Needs e step)
    (catalog.progress options entry) s
  := by
  obtain before | origin := (serves_errands catalog entry cycles).origin (.start _) member
  · cases before
  · exact origin

/-- Where cycles are looked for, the prefixes keep the variables apart, and no bound value assigns
anything, the variable of a shared object is assigned under its guard only, wherever that is in the
plan, and not once more inside of what is guarded. The variable of an eager object is assigned once
in the plan: first thing in the statement that constructs the object. The code of subclasses assigns
nothing. -/
theorem singletons_guarded [Dialect] (catalog : Catalog) (options : Options) (entry : EntryPoint)
    (cycles : options.detectCycles = true) (apart : options.PrefixesApart)
    (values : (catalog.injector options entry).AssignFree) :
  let inj := catalog.injector options entry
  let plan := (catalog.planEntry options entry).value
  let held := (catalog.progress options entry).singleton?
  (∀ className c, inj.class? className = some c → c.scope = .singleton →
    ∀ s, held className = some s → ∀ statement ∈ plan.statements, statement.value.Guarded s.name)
    ∧ (∀ className c, inj.class? className = some c → c.scope = .eagerSingleton →
      ∃ s, held className = some s
        ∧ plan.nodes.countP (Expr.assigns s.name) = 1
        ∧ ∃ args value, .construct className s.name value ∈ plan.statements
          ∧ Expr.StartsWith (.assign s.name (.new (inj.constructedName c) args)) value)
    ∧ ∀ subclass ∈ plan.subclasses, ∀ statement ∈ subclass.code, ∀ v,
      Expr.assignments v [statement.value] = 0
  := by
  intro inj plan held
  have valid := valid_progress catalog entry cycles
  have owned {className : String} {s : SingletonVariable} (h : held className = some s) :
      (catalog.progress options entry).Owns className s.name := by
    rw [← className_of_singleton? h]
    apply valid.owns (Valid.mem_of_singleton? h)
  have temporaries {className : String} {s : SingletonVariable} (h : held className = some s) :=
    temporaries_ne cycles apart (Valid.mem_of_singleton? h)
  refine ⟨?_, ?_, ?_⟩
  · intro className c declared scope s h statement member
    have origin := origin_of_mem_statements catalog entry cycles member
    apply origin.guarded cycles values (temporaries h) (owned h)
    use c
  · intro className c declared scope
    obtain rfl := name_of_class? declared
    have eager : inj.IsEager c.name := ⟨c, declared, scope⟩
    have listed := (mem_constructionOrder_iff catalog entry cycles).mpr eager
    -- its own statement tells which variable it holds
    obtain ⟨statement, member, constructed⟩ := List.mem_filterMap.mp listed
    have origin := origin_of_mem_statements catalog entry cycles member
    cases origin with
    | answer _ _ _ => cases constructed
    | @construct _ d target _ p e p' declared' _ _ _ _ taken creation grows =>
        have same : d.name = c.name := Option.some.inj constructed
        rw [same] at declared'
        obtain rfl := Option.some.inj (declared.symm.trans declared')
        obtain ⟨s, h, name⟩ := (creation.grows.trans grows).singleton? taken
        obtain rfl : s.name = target := name
        obtain ⟨args, starts⟩ := creation.startsWith_assign
        have counted : plan.nodes.countP (Expr.assigns s.name)
            = plan.constructionOrder.count c.name := by
          apply Plan.countP_assigns_eq
          intro other member
          have origin := origin_of_mem_statements catalog entry cycles member
          apply origin.assignments_eq cycles values (temporaries h) (owned h) eager
        refine ⟨s, h, ?_, args, e, member, starts⟩
        rw [counted]
        apply List.count_eq_one_of_mem (nodup_constructionOrder catalog entry cycles) listed
  · intro subclass member statement inside v
    rw [subclasses_planEntry] at member
    obtain ⟨c, -, -, rfl⟩ := (catalog.woven_progress options entry).subclass subclass member
    apply inj.assignments_code c statement inside

/-- A lighthouse, which stands there before any ship comes and is lit by a lamp that is filled with
oil. The ships are handed a function that calls for the lamp. -/
def harbour : Catalog where
  classes :=
    [ { name := "Lighthouse", params := ["lamp"] },
      { name := "Lamp"
        methods := [{ name := "fill", params := ["oil"] }]
        setters := ["fill"] },
      { name := "Ship", params := ["lightProvider"] } ]
  modules :=
    [ { name := "Coast"
        bindings :=
          [ { key := "lighthouse", source := .type "Lighthouse", scope := some .eagerSingleton },
            { key := "lamp", source := .type "Lamp", scope := some .singleton },
            { key := "light", source := .provider ["lamp"] },
            { key := "oil", source := .value (.str "oil") } ] } ]

/-- A ship is asked for, and the lamp. -/
def nightfall : EntryPoint where
  name := "nightfall"
  modules := ["Coast"]
  requests := [⟨.ofClass "Ship", {}⟩, ⟨.ofKey "lamp", {}⟩]

/-- The lamp is constructed under its guard, and the lighthouse in its own statement. -/
theorem singletons_guarded_harbour :
  ({} : Options).detectCycles = true ∧ ({} : Options).PrefixesApart
    ∧ (harbour.injector {} nightfall).AssignFree
    ∧ (harbour.planEntry {} nightfall).value.nodes.countP (Expr.assigns "singletonInstance0") = 1
    ∧ ∀ statement ∈ (harbour.planEntry {} nightfall).value.statements,
      statement.value.Guarded "singletonInstance1"
  := by
  have values : (harbour.injector {} nightfall).AssignFree := by
    have bindings : ∀ b ∈ (harbour.injector {} nightfall).bindings,
        b.binding.kind = .toInstance → b.binding.source = .value (.str "oil") := by
      decide +kernel
    intro b member e source target value inside
    have bound := bindings b member (by rw [Binding.kind, source])
    obtain rfl := Source.value.inj (source.symm.trans bound)
    simp [Expr.visited] at inside
  have scopes : ((harbour.injector {} nightfall).class? "Lighthouse").map (·.scope)
        = some .eagerSingleton
      ∧ ((harbour.injector {} nightfall).class? "Lamp").map (·.scope) = some .singleton := by
    rw [injector, ofEntry_eq]
    decide +kernel
  have names : ((harbour.progress {} nightfall).singleton? "Lighthouse").map (·.name)
        = some "singletonInstance0"
      ∧ ((harbour.progress {} nightfall).singleton? "Lamp").map (·.name)
        = some "singletonInstance1" := by
    rw [progress, injector, ofEntry_eq]
    decide +kernel
  obtain ⟨shared, eager, -⟩ :=
    singletons_guarded harbour {} nightfall rfl prefixesApart_default values
  refine ⟨rfl, prefixesApart_default, values, ?_, ?_⟩
  · obtain ⟨lighthouse, declared, scope⟩ := Option.map_eq_some_iff.mp scopes.1
    obtain ⟨s, held, once, -⟩ := eager "Lighthouse" lighthouse declared scope
    have name : s.name = "singletonInstance0" := by simpa [held] using names.1
    rw [← name, once]
  · obtain ⟨lamp, declared, scope⟩ := Option.map_eq_some_iff.mp scopes.2
    obtain ⟨s, held, name⟩ := Option.map_eq_some_iff.mp names.2
    rw [← name]
    apply shared "Lamp" lamp declared scope s held

end Catalog

end Wiring
