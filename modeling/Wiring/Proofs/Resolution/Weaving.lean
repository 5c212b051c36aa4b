import Wiring.Proofs.Injector.Interception
import Wiring.Proofs.Resolution.Construction

/-!
# Weaving

A class with intercepted methods is constructed through its subclass, wherever it is constructed,
and any other class as it is. The subclass of a class is added once and before the class is
constructed for the first time, and it is added for the sake of a construction
(`constructions_woven`).

The subclasses added so far are those of intercepted classes, one for each (`Progress.Woven`). When
a construction is invoked, the subclass of its class is among them (`Invocation.Ready`).
-/

namespace Wiring

open Relation

/-- The subclasses added so far are those of declared classes that are intercepted, one for each. -/
structure Progress.Woven (inj : Injector) (p : Progress) : Prop where
  subclass : ∀ s ∈ p.subclasses, ∃ c, inj.class? c.name = some c ∧ c.isIntercepted = true
    ∧ s = inj.interceptingClass c
  distinct : (p.subclasses.map (·.base)).Nodup

/-- If the invocation constructs an object, the subclass of its class has been added. -/
structure Invocation.Ready (inj : Injector) (i : Invocation) : Prop where
  woven : i.progress.Woven inj
  subclass : ∀ c target, i.task = .creation c target → c.isIntercepted = true →
    i.progress.hasSubclass c.name = true

namespace Progress

variable {inj : Injector} {c : ManagedClass} {p q : Progress}

theorem hasSubclass_eq_true {className : String} :
  p.hasSubclass className = true ↔ ∃ s ∈ p.subclasses, s.base = className
  := by
  simp [hasSubclass]

theorem subclasses_hold (options : Options) (target : Option String) (p : Progress) :
  (p.hold options target).subclasses = p.subclasses
  := by
  cases target <;> rfl

theorem mem_subclasses_addSubclass {s : InterceptingClass}
    (h : s ∈ (p.addSubclass inj c).subclasses) :
  s ∈ p.subclasses ∨ s = inj.interceptingClass c
  := by
  unfold addSubclass at h
  split at h
  · simpa using h
  · exact .inl h

namespace Woven

theorem start (inj : Injector) :
  Progress.Woven inj {}
  where
  subclass := by simp
  distinct := List.nodup_nil

theorem of_subclasses_eq (h : p.Woven inj) (eq : q.subclasses = p.subclasses) :
  q.Woven inj
  where
  subclass := by
    rw [eq]
    exact h.subclass
  distinct := by
    rw [eq]
    exact h.distinct

theorem hold (h : p.Woven inj) (target : Option String) :
  (p.hold inj.options target).Woven inj
  := h.of_subclasses_eq (subclasses_hold _ _ _)

theorem addSubclass (h : p.Woven inj) (declared : inj.class? c.name = some c) :
  (p.addSubclass inj c).Woven inj
  := by
  unfold Progress.addSubclass
  split
  · next new =>
      obtain ⟨intercepted, fresh⟩ : c.isIntercepted = true ∧ p.hasSubclass c.name = false := by
        simpa using new
      constructor
      · intro s hs
        obtain hs | hs := List.mem_append.mp hs
        · apply h.subclass s hs
        · obtain rfl := List.mem_singleton.mp hs
          use c
      · rw [List.map_append]
        apply List.nodup_append.mpr
        use h.distinct, List.nodup_singleton _
        simpa [hasSubclass, Injector.interceptingClass] using fresh
  · exact h

/-- The subclass of a class is the one that intercepts it, and it is there for a reason. -/
theorem eq_interceptingClass (h : p.Woven inj) (declared : inj.class? c.name = some c)
    {s : InterceptingClass} (hs : s ∈ p.subclasses) (base : s.base = c.name) :
  c.isIntercepted = true ∧ s = inj.interceptingClass c
  := by
  obtain ⟨d, declared', intercepted, rfl⟩ := h.subclass s hs
  have name : d.name = c.name := base
  rw [name] at declared'
  obtain rfl := Option.some.inj (declared.symm.trans declared')
  exact ⟨intercepted, rfl⟩

/-- Only classes that are intercepted have subclasses. -/
theorem isIntercepted (h : p.Woven inj) (declared : inj.class? c.name = some c)
    (added : p.hasSubclass c.name = true) :
  c.isIntercepted = true
  := by
  obtain ⟨s, hs, base⟩ := hasSubclass_eq_true.mp added
  apply (h.eq_interceptingClass declared hs base).1

/-- Of each class that has its subclass there is one. -/
theorem filter_eq (h : p.Woven inj) (declared : inj.class? c.name = some c)
    (added : p.hasSubclass c.name = true) :
  p.subclasses.filter (·.base = c.name) = [inj.interceptingClass c]
  := by
  have member : c.name ∈ p.subclasses.map (·.base) := by
    simpa [hasSubclass_eq_true] using added
  have bases : (p.subclasses.filter (·.base = c.name)).map (·.base) = [c.name] := by
    calc (p.subclasses.filter (·.base = c.name)).map (·.base)
      _ = (p.subclasses.map (·.base)).filter (· = c.name) := by
        rw [List.filter_map]
        rfl
      _ = List.replicate ((p.subclasses.map (·.base)).count c.name) c.name := List.filter_eq _
      _ = [c.name] := by rw [List.count_eq_one_of_mem h.distinct member, List.replicate_one]
  obtain ⟨s, eq, base⟩ := List.map_eq_singleton_iff.mp bases
  have hs : s ∈ p.subclasses.filter (·.base = c.name) := by
    rw [eq]
    apply List.mem_singleton_self
  rw [eq, (h.eq_interceptingClass declared (List.mem_of_mem_filter hs) base).2]

end Woven

end Progress

namespace Injector

open Progress

variable {inj : Injector} {site : Site} {task : Task} {i j : Invocation} {c : ManagedClass}
  {p p' q r : Progress} {args es : List Expr} {errands : List Errand}

/-- Resolution adds subclasses of intercepted classes only, and none twice. -/
theorem Resolves.woven (h : inj.Resolves site task p es p') (woven : p.Woven inj) :
  p'.Woven inj
  := by
  induction h with
  | held declared _ _ _ => apply woven.addSubclass declared
  | heldLazily declared _ _ _ _ ih =>
      exact (ih (woven.addSubclass declared)).of_subclasses_eq rfl
  | prototype declared _ _ _ _ ih => apply ih (woven.addSubclass declared)
  | singleton declared _ _ _ _ ih =>
      apply ih ((woven.addSubclass declared).of_subclasses_eq rfl)
  | eagerSingleton declared _ _ _ _ ih =>
      exact (ih ((woven.addSubclass declared).of_subclasses_eq rfl)).of_subclasses_eq rfl
  | provided _ ih => apply ih woven
  | providerFunction _ ih => exact (ih (woven.of_subclasses_eq rfl)).of_subclasses_eq rfl
  | call _ _ _ _ ih => apply ih woven
  | creation _ _ _ ih => apply ih woven
  | creationWithSetters _ _ _ _ ih₁ ih₂ => apply ih₂ ((ih₁ woven).hold _)
  | parameter _ _ ih₁ ih₂ => apply ih₂ (ih₁ woven)
  | setter _ _ ih₁ ih₂ => apply ih₂ (ih₁ woven)
  | absent => exact woven.of_subclasses_eq rfl
  | cyclicObject _ _ => exact woven.of_subclasses_eq rfl
  | cyclicCall _ _ _ => exact woven.of_subclasses_eq rfl
  | _ => exact woven

/-- A class is constructed once it has been added whatever subclass it has. -/
theorem ready_of_addSubclass {target : Option String} (woven : p.Woven inj)
    (declared : inj.class? c.name = some c)
    (subclasses : q.subclasses = (p.addSubclass inj c).subclasses) :
  Invocation.Ready inj ⟨site, .creation c target, q⟩
  where
  woven := (woven.addSubclass declared).of_subclasses_eq subclasses
  subclass := by
    rintro _ _ ⟨⟩ intercepted
    rw [hasSubclass, subclasses]
    apply hasSubclass_addSubclass intercepted

/-- A subclass is added before any construction that it is added for. -/
theorem Invokes.ready (h : inj.Invokes i j) (sound : i.Sound inj) (ready : i.Ready inj) :
  j.Ready inj
  := by
  obtain ⟨woven, -⟩ := ready
  cases h with
  | heldLazily _ _ _ => exact ready_of_addSubclass woven sound.task rfl
  | prototype _ _ _ => exact ready_of_addSubclass woven sound.task rfl
  | singleton _ _ _ => exact ready_of_addSubclass woven sound.task rfl
  | eagerSingleton _ _ _ => exact ready_of_addSubclass woven sound.task rfl
  | provided => exact ⟨woven, by simp⟩
  | providerFunction => exact ⟨woven.of_subclasses_eq rfl, by simp⟩
  | call _ => exact ⟨woven, by simp⟩
  | creation => exact ⟨woven, by simp⟩
  | setters _ parameters => exact ⟨(parameters.woven woven).hold _, by simp⟩
  | parameter => exact ⟨woven, by simp⟩
  | laterParameters first => exact ⟨first.woven woven, by simp⟩
  | setter => exact ⟨woven, by simp⟩
  | laterSetters first => exact ⟨first.woven woven, by simp⟩

/-- Wherever an object is constructed, the subclass of its class is there if it has one. -/
theorem Constructs.woven (cycles : inj.options.detectCycles = true)
    (h : inj.Constructs i c args q) (sound : i.Sound inj) (ready : i.Ready inj) :
  inj.class? c.name = some c ∧ q.Woven inj
    ∧ (c.isIntercepted = true → q.hasSubclass c.name = true)
  := by
  obtain ⟨site, target, p, nested, parameters⟩ := h
  induction nested using ReflTransGen.head_induction_on with
  | refl =>
      refine ⟨sound.task.1, parameters.woven ready.woven, fun intercepted => ?_⟩
      apply hasSubclass_of_prefix parameters.grows.subclasses
      apply ready.subclass c target rfl intercepted
  | head invokes _ ih => apply ih (invokes.sound cycles sound) (invokes.ready sound ready)

/-- The class that stands in for a class as things stand is the one that it is constructed as. -/
theorem standIn_eq (woven : q.Woven inj) (declared : inj.class? c.name = some c)
    (added : c.isIntercepted = true → q.hasSubclass c.name = true) :
  q.standIn inj c = inj.constructedName c
  := by
  unfold standIn constructedName
  by_cases intercepted : c.isIntercepted = true
  · simp [intercepted, added intercepted]
  · have none : q.hasSubclass c.name = false := by
      by_contra some
      apply intercepted (woven.isIntercepted declared (by simpa using some))
    simp [intercepted, none]

/-! ### From subclasses to constructions -/

/-- The subclass is that of a class that is constructed on behalf of the invocation. -/
def Warrants (inj : Injector) (i : Invocation) (s : InterceptingClass) : Prop :=
  ∃ c args q, inj.Constructs i c args q ∧ s = inj.interceptingClass c

theorem Warrants.of_invokes {s : InterceptingClass} (invokes : inj.Invokes i j)
    (h : inj.Warrants j s) :
  inj.Warrants i s
  := by
  obtain ⟨c, args, q, constructs, eq⟩ := h
  exact ⟨c, args, q, constructs.of_invokes invokes, eq⟩

/-- A use of a class that constructs an object warrants the subclass of the class. -/
theorem Warrants.or_of_creation {target : Option String} {s : InterceptingClass}
    (invokes : inj.Invokes ⟨site, .dependency (.object c), p⟩ ⟨site, .creation c target, q⟩)
    (subclasses : q.subclasses = (p.addSubclass inj c).subclasses)
    (creation : inj.Resolves site (.creation c target) q es r)
    (h : s ∈ q.subclasses ∨ inj.Warrants ⟨site, .creation c target, q⟩ s) :
  s ∈ p.subclasses ∨ inj.Warrants ⟨site, .dependency (.object c), p⟩ s
  := by
  obtain before | warrants := h
  · rw [subclasses] at before
    obtain before | rfl := mem_subclasses_addSubclass before
    · exact .inl before
    · obtain ⟨args, q', constructs⟩ := creation.constructs
      exact .inr ⟨c, args, q', constructs.of_invokes invokes, rfl⟩
  · exact .inr (warrants.of_invokes invokes)

/-- Resolution adds a subclass for the sake of a construction only. -/
theorem Resolves.warrants (h : inj.Resolves site task p es p') (valid : p.Valid inj)
    {s : InterceptingClass} (hs : s ∈ p'.subclasses) :
  s ∈ p.subclasses ∨ inj.Warrants ⟨site, task, p⟩ s
  := by
  induction h with
  | held declared _ held _ =>
      -- the subclass has been there since the variable was taken
      rw [valid.addSubclass_eq declared held] at hs
      exact .inl hs
  | heldLazily _ fresh held lazy creation ih =>
      apply Warrants.or_of_creation (.heldLazily fresh held lazy) rfl creation
      apply ih (valid.addSubclass _) hs
  | prototype _ fresh unheld scope creation ih =>
      apply Warrants.or_of_creation (.prototype fresh unheld scope) rfl creation
      apply ih (valid.addSubclass _) hs
  | singleton declared fresh unheld scope creation ih =>
      apply Warrants.or_of_creation (.singleton fresh unheld scope) rfl creation
      apply ih _ hs
      apply valid.takeShared declared unheld scope
  | eagerSingleton declared fresh unheld scope creation ih =>
      apply Warrants.or_of_creation (.eagerSingleton fresh unheld scope) rfl creation
      apply ih _ hs
      apply valid.takeEager declared unheld scope
  | provided _ ih => exact (ih valid hs).imp_right (.of_invokes .provided)
  | providerFunction _ ih => exact (ih valid.defer hs).imp_right (.of_invokes .providerFunction)
  | call _ _ fresh _ ih => exact (ih valid hs).imp_right (.of_invokes (.call fresh))
  | creation _ _ _ ih => exact (ih valid hs).imp_right (.of_invokes .creation)
  | creationWithSetters _ plain parameters _ ih₁ ih₂ =>
      obtain before | warrants := ih₂ ((parameters.valid valid).hold _) hs
      · rw [subclasses_hold] at before
        exact (ih₁ valid before).imp_right (.of_invokes .creation)
      · exact .inr (warrants.of_invokes (.setters plain parameters))
  | parameter first _ ih₁ ih₂ =>
      obtain before | warrants := ih₂ (first.valid valid) hs
      · exact (ih₁ valid before).imp_right (.of_invokes .parameter)
      · exact .inr (warrants.of_invokes (.laterParameters first))
  | setter first _ ih₁ ih₂ =>
      obtain before | warrants := ih₂ (first.valid valid) hs
      · exact (ih₁ valid before).imp_right (.of_invokes .setter)
      · exact .inr (warrants.of_invokes (.laterSetters first))
  | _ => exact .inl hs

/-! ### Errands -/

theorem sound_invocation {errand : Errand} (sound : errand.Sound inj) (p : Progress) :
  (inj.invocation errand p).Sound inj
  := ⟨.nil inj, offers_of_sound sound⟩

theorem ready_invocation {errand : Errand} (woven : p.Woven inj) :
  (inj.invocation errand p).Ready inj
  := ⟨woven, by simp [invocation]⟩

theorem subclasses_finish (errand : Errand) (e : Expr) (p : Progress) :
  (errand.finish e p).subclasses = p.subclasses
  := by
  cases errand <;> rfl

theorem woven_finish {errand : Errand} {e : Expr} (woven : p.Woven inj) :
  (errand.finish e p).Woven inj
  := woven.of_subclasses_eq (subclasses_finish _ _ _)

theorem Serves.woven (serves : inj.Serves errands p r) (woven : p.Woven inj) :
  r.Woven inj
  := by
  induction serves with
  | nil => exact woven
  | cons first _ ih => apply ih (woven_finish (first.woven woven))

/-- Wherever an errand constructs an object, the subclass of its class is there if it has one. -/
theorem Makes.woven (cycles : inj.options.detectCycles = true)
    (h : inj.Makes c args q errands p) (woven : p.Woven inj)
    (sound : ∀ errand ∈ errands, errand.Sound inj) :
  inj.class? c.name = some c ∧ q.Woven inj
    ∧ (c.isIntercepted = true → q.hasSubclass c.name = true)
  := by
  induction h with
  | first constructs =>
      apply constructs.woven cycles _ (ready_invocation woven)
      apply sound_invocation (sound _ List.mem_cons_self)
  | later first _ ih =>
      apply ih (woven_finish (first.woven woven))
      intro errand member
      apply sound errand (List.mem_cons_of_mem _ member)

/-- Errands add a subclass for the sake of a construction only. -/
theorem Serves.makes_of_subclass (serves : inj.Serves errands p r) (valid : p.Valid inj)
    {s : InterceptingClass} (hs : s ∈ r.subclasses) :
  s ∈ p.subclasses ∨ ∃ c args q, inj.Makes c args q errands p ∧ s = inj.interceptingClass c
  := by
  induction serves with
  | nil => exact .inl hs
  | @cons errand _ _ _ _ _ first _ ih =>
      obtain before | ⟨c, args, q, makes, eq⟩ := ih (Errand.valid_finish (first.valid valid)) hs
      · rw [subclasses_finish] at before
        obtain before | ⟨c, args, q, constructs, eq⟩ := first.warrants valid before
        · exact .inl before
        · exact .inr ⟨c, args, q, .first constructs, eq⟩
      · exact .inr ⟨c, args, q, .later first makes, eq⟩

end Injector

/-- The subclass hands on all that its constructor is given, and it overrides the methods, in their
order and with their parameters. -/
structure InterceptingClass.Weaves (s : InterceptingClass) (c : ClassDecl)
    (methods : List MethodDecl) : Prop where
  base : s.base = c.name
  params : s.params = c.params
  constructor : s.constructor = [.evaluate (.call .super (c.params.map .name))]
  methods : s.methods.map (fun o => (o.name, o.params)) = methods.map fun m => (m.name, m.params)

namespace Catalog

open Injector

section

variable [Dialect] {catalog : Catalog} {options : Options} {entry : EntryPoint}
  {c : ManagedClass}

/-- A subclass in the plan is there for the sake of a construction. -/
theorem exists_makes_of_mem_subclasses (cycles : options.detectCycles = true)
    {s : InterceptingClass} (hs : s ∈ (catalog.planEntry options entry).value.subclasses) :
  ∃ c args q, (catalog.injector options entry).Makes c args q
      (catalog.injector options entry).errands {}
    ∧ s = (catalog.injector options entry).interceptingClass c
  := by
  obtain before | makes := (serves_errands catalog entry cycles).makes_of_subclass (.start _) hs
  · cases before
  · exact makes

theorem weaves_interceptingClass
    (declared : (catalog.injector options entry).class? c.name = some c) :
  ((catalog.injector options entry).interceptingClass c).Weaves c.decl
    (c.decl.methods.filter (catalog.intercepts options entry c.decl))
  where
  base := rfl
  params := rfl
  constructor := rfl
  methods := map_overrides declared

variable (cycles : options.detectCycles = true) {args : List Expr} {q : Progress}
  (makes : (catalog.injector options entry).Makes c args q
    (catalog.injector options entry).errands {})

include cycles makes

/-- What is constructed for an entry point has a declared class, and it is named after the one that
stands in for the class by then. -/
theorem standIn_of_makes :
  (catalog.injector options entry).class? c.name = some c
    ∧ q.standIn (catalog.injector options entry) c
      = (catalog.injector options entry).constructedName c
  := by
  obtain ⟨declared, woven, added⟩ := makes.woven cycles (.start _) fun _ => sound_of_mem_errands
  exact ⟨declared, standIn_eq woven declared added⟩

/-- What is constructed for an entry point is in its plan. -/
theorem new_mem_of_makes :
  .new (q.standIn (catalog.injector options entry) c) args
    ∈ (catalog.planEntry options entry).value.nodes
  := by
  rw [(standIn_of_makes cycles makes).2]
  apply (makes.new_mem (serves_errands catalog entry cycles) (.start _) _).1
  exact fun _ => sound_of_mem_errands

/-- A class with intercepted methods is constructed through its subclass, and its plan has one. -/
theorem exists_subclass_of_makes
    (intercepted : ∃ m ∈ c.decl.methods, catalog.intercepts options entry c.decl m = true) :
  ∃ s, (catalog.planEntry options entry).value.subclasses.filter (·.base = c.name) = [s]
    ∧ s.Weaves c.decl (c.decl.methods.filter (catalog.intercepts options entry c.decl))
    ∧ s.name = options.subclassPrefix ++ identifierOf c.name
    ∧ (s.name = c.name ↔ options.subclassPrefix = "" ∧ identifierOf c.name = c.name)
    ∧ q.standIn (catalog.injector options entry) c = s.name
  := by
  have serves := serves_errands catalog entry cycles
  obtain ⟨declared, standIn⟩ := standIn_of_makes cycles makes
  have isIntercepted : c.isIntercepted = true := (isIntercepted_iff declared).mpr intercepted
  have woven := makes.woven cycles (.start _) fun _ => sound_of_mem_errands
  have grows := (makes.new_mem serves (.start _) fun _ => sound_of_mem_errands).2
  have added := Progress.hasSubclass_of_prefix grows.subclasses (woven.2.2 isIntercepted)
  refine ⟨(catalog.injector options entry).interceptingClass c, ?_,
    weaves_interceptingClass declared, rfl,
    (catalog.injector options entry).interceptingName_eq_iff c.name, ?_⟩
  · rw [subclasses_planEntry]
    apply (serves.woven (.start _)).filter_eq declared added
  · rw [standIn, constructedName, if_pos isIntercepted]
    rfl

/-- Any other class is constructed as it is, and there is no subclass of it. -/
theorem no_subclass_of_makes
    (plain : ∀ m ∈ c.decl.methods, catalog.intercepts options entry c.decl m = false) :
  (catalog.planEntry options entry).value.subclasses.filter (·.base = c.name) = []
    ∧ q.standIn (catalog.injector options entry) c = c.name
  := by
  obtain ⟨declared, standIn⟩ := standIn_of_makes cycles makes
  have isPlain : c.isIntercepted ≠ true := by
    intro intercepted
    obtain ⟨m, hm, intercepts⟩ := (isIntercepted_iff declared).mp intercepted
    cases (plain m hm).symm.trans intercepts
  have woven := (serves_errands catalog entry cycles).woven (.start _)
  constructor
  · apply List.filter_eq_nil_iff.mpr
    intro s hs base
    apply isPlain
    apply (woven.eq_interceptingClass declared hs (by simpa using base)).1
  · rw [standIn, constructedName, if_neg isPlain]

end

/-- Where cycles are looked for, every construction of an object for an entry point is in the plan,
with one argument for each parameter of the constructor of its class. If some method of the class is
intercepted, it is the subclass that is constructed; there is one subclass of the class in the plan,
it hands its arguments on, and it overrides the methods that are intercepted. The subclass has a name
of its own, unless names of subclasses start with nothing and the class has an identifier for a name.
Otherwise the class itself is constructed and there is no subclass of it. All other constructions in
the plan stand in bound values. Every subclass in the plan is constructed. -/
theorem constructions_woven [Dialect] (catalog : Catalog) (options : Options) (entry : EntryPoint)
    (cycles : options.detectCycles = true) :
  let inj := catalog.injector options entry
  let plan := (catalog.planEntry options entry).value
  (∀ c args q, inj.Makes c args q inj.errands {} →
      c.decl ∈ catalog.classes ∧ .new (q.standIn inj c) args ∈ plan.nodes
        ∧ args.length = c.decl.params.length
        ∧ ((∃ m ∈ c.decl.methods, catalog.intercepts options entry c.decl m = true) →
          ∃ s, plan.subclasses.filter (·.base = c.name) = [s]
            ∧ s.Weaves c.decl (c.decl.methods.filter (catalog.intercepts options entry c.decl))
            ∧ s.name = options.subclassPrefix ++ identifierOf c.name
            ∧ (s.name = c.name ↔ options.subclassPrefix = "" ∧ identifierOf c.name = c.name)
            ∧ q.standIn inj c = s.name)
        ∧ ((∀ m ∈ c.decl.methods, catalog.intercepts options entry c.decl m = false) →
          plan.subclasses.filter (·.base = c.name) = [] ∧ q.standIn inj c = c.name))
    ∧ (∀ className args, .new className args ∈ plan.nodes →
      (∃ b ∈ inj.bindings, ∃ e, b.binding.source = .value e ∧ .new className args ∈ e.visited)
        ∨ ∃ c q, inj.Makes c args q inj.errands {} ∧ className = q.standIn inj c)
    ∧ ∀ s ∈ plan.subclasses, ∃ c args q, inj.Makes c args q inj.errands {} ∧ s.base = c.name
      ∧ s.name = q.standIn inj c ∧ .new s.name args ∈ plan.nodes
  := by
  intro inj plan
  have serves : inj.Serves inj.errands {} (catalog.progress options entry) :=
    serves_errands catalog entry cycles
  refine ⟨fun c args q makes => ?_, fun className args member => ?_, fun s hs => ?_⟩
  · obtain ⟨declared, -⟩ := standIn_of_makes cycles makes
    exact ⟨decl_mem_of_class? declared, new_mem_of_makes cycles makes, makes.length_eq,
      exists_subclass_of_makes cycles makes, no_subclass_of_makes cycles makes⟩
  · obtain before | bound | ⟨c, q, makes, name⟩ :=
      serves.accounts (.start _) (fun _ => sound_of_mem_errands) member
    · simp [Progress.nodes] at before
    · exact .inl bound
    · exact .inr ⟨c, q, makes, name.trans (standIn_of_makes cycles makes).2.symm⟩
  · obtain ⟨c, args, q, makes, rfl⟩ := exists_makes_of_mem_subclasses cycles hs
    obtain ⟨declared, standIn⟩ := standIn_of_makes cycles makes
    -- what stands in the plan as a subclass is that of an intercepted class
    have woven := serves.woven (.start _)
    have intercepted := (woven.eq_interceptingClass declared hs rfl).1
    have name : (inj.interceptingClass c).name = q.standIn inj c := by
      rw [standIn, constructedName, if_pos intercepted]
      rfl
    exact ⟨c, args, q, makes, rfl, name, name ▸ new_mem_of_makes cycles makes⟩

/-- A painter with a brush, whose work is looked after, and a brush that is left alone. -/
def gallery : Catalog where
  classes :=
    [ { name := "Painter"
        params := ["brush"]
        methods :=
          [ { name := "paint", params := ["canvas"] }, { name := "sign" },
            { name := "prime", ambiguous := true } ] },
      { name := "Brush", methods := [{ name := "dip" }] } ]
  modules :=
    [ { name := "Gallery"
        bindings := [{ key := "brush", source := .type "Brush" }]
        interceptors :=
          [ { classSelector := .any
              methodSelector := .like "p*"
              body := "return invocation.proceed();" } ] } ]

/-- A painter is asked for. -/
def vernissage : EntryPoint where
  name := "vernissage"
  modules := ["Gallery"]
  requests := [⟨.ofClass "Painter", {}⟩]

/-- The painter is constructed through a subclass that overrides the one method that is looked
after. -/
theorem constructions_woven_gallery :
  ({} : Options).detectCycles = true
    ∧ ∃ s, (gallery.planEntry {} vernissage).value.subclasses.filter (·.base = "Painter") = [s]
      ∧ s.params = ["brush"]
      ∧ s.methods.map (fun o => (o.name, o.params)) = [("paint", ["canvas"])]
      ∧ s.name ≠ "Painter"
      ∧ ∃ brush, .new s.name [brush] ∈ (gallery.planEntry {} vernissage).value.nodes
  := by
  use rfl
  obtain ⟨made, -, warranted⟩ := constructions_woven gallery {} vernissage rfl
  have bases : (gallery.planEntry {} vernissage).value.subclasses.map (·.base) = ["Painter"] := by
    rw [planEntry, ofEntry_eq]
    decide +kernel
  obtain ⟨t, single, base⟩ := List.map_eq_singleton_iff.mp bases
  obtain ⟨c, args, q, makes, base', -, -⟩ := warranted t (single ▸ List.mem_singleton_self t)
  have name : c.name = "Painter" := base'.symm.trans base
  obtain ⟨member, inPlan, length, subclass, -⟩ := made c args q makes
  have painter : ∀ d ∈ gallery.classes, d.name = "Painter" → d.params = ["brush"]
      ∧ (∃ m ∈ d.methods, gallery.intercepts {} vernissage d m = true)
      ∧ (d.methods.filter (gallery.intercepts {} vernissage d)).map (fun m => (m.name, m.params))
        = [("paint", ["canvas"])] := by
    decide +kernel
  obtain ⟨params, intercepted, methods⟩ := painter c.decl member name
  obtain ⟨s, one, weaves, -, ownName, standIn⟩ := subclass intercepted
  rw [params] at length
  obtain ⟨brush, rfl⟩ := List.length_eq_one_iff.mp length
  rw [name] at one ownName
  rw [standIn] at inPlan
  have distinct : s.name ≠ "Painter" := by
    intro same
    exact absurd (ownName.mp same).1 (by decide)
  exact ⟨s, one, weaves.params.trans params, weaves.methods.trans methods, distinct, brush, inPlan⟩

/-- Names of subclasses start with nothing. -/
def unmarked : Options where
  subclassPrefix := ""

/-- A brush is asked for. -/
def sketching : EntryPoint where
  name := "sketching"
  modules := ["Studio"]
  requests := [⟨.ofClass "brush", {}⟩]

/-- A brush that is looked after, under a name that is an identifier. -/
def studioDeclarations : List Declaration :=
  [ .ofClass { name := "brush", methods := [{ name := "dip" }] },
    .ofModule
      { name := "Studio"
        interceptors :=
          [{ classSelector := .any, methodSelector := .any, body := "function(call) { }" }] },
    .ofEntry sketching ]

def studio : Catalog :=
  (Registry.addAll unmarked {} studioDeclarations >>= Registry.close).value

/-- The brush is intercepted, and what is constructed is named after it all the same. -/
theorem constructed_under_own_name_studio :
  sketching ∈ studio.entries ∧ unmarked.detectCycles = true
    ∧ ∃ c args q,
      (studio.injector unmarked sketching).Makes c args q
        (studio.injector unmarked sketching).errands {}
      ∧ (∃ m ∈ c.decl.methods, studio.intercepts unmarked sketching c.decl m = true)
      ∧ .new c.name args ∈ (studio.planEntry unmarked sketching).value.nodes
      ∧ q.standIn (studio.injector unmarked sketching) c = c.name
  := by
  have entries : sketching ∈ studio.entries := by decide +kernel
  refine ⟨entries, rfl, ?_⟩
  have cycles : unmarked.detectCycles = true := rfl
  have bases : (studio.planEntry unmarked sketching).value.subclasses.map (·.base) = ["brush"] := by
    rw [planEntry, ofEntry_eq]
    decide +kernel
  obtain ⟨s, single, base⟩ := List.map_eq_singleton_iff.mp bases
  have hs : s ∈ (studio.planEntry unmarked sketching).value.subclasses :=
    single ▸ List.mem_singleton_self s
  obtain ⟨c, args, q, makes, rfl⟩ := exists_makes_of_mem_subclasses cycles hs
  have name : c.name = "brush" := base
  have dips : ∀ d ∈ studio.classes,
      ∃ m ∈ d.methods, studio.intercepts unmarked sketching d m = true := by
    decide +kernel
  have intercepted := dips c.decl (decl_mem_of_class? (standIn_of_makes cycles makes).1)
  obtain ⟨t, -, -, -, sameName, standIn⟩ := exists_subclass_of_makes cycles makes intercepted
  have same : t.name = c.name := by
    apply sameName.mpr
    rw [name]
    use rfl
    decide +kernel
  have inPlan := new_mem_of_makes cycles makes
  rw [standIn, same] at inPlan
  exact ⟨c, args, q, makes, intercepted, inPlan, standIn.trans same⟩

end Catalog

end Wiring
