import Wiring.Proofs.Resolution.Growth
import Mathlib.Data.List.Nodup
import Std.Data.String.ToNat

/-!
# Variables of shared objects

A variable is held by one class, which shares its objects and has been given its subclass before.
`p.Valid inj` says so of all variables taken so far, and resolution preserves it
(`Resolves.valid`). It follows that no two classes hold one variable (`Valid.eq_of_name_eq`) and
that a class that holds one needs no subclass any more (`Valid.addSubclass_eq`).
-/

namespace Wiring

/-- The class that holds a variable. It shares its objects, and it is constructed on first use if
the variable is lazy. -/
structure SingletonVariable.HeldBy (inj : Injector) (p : Progress) (c : ManagedClass)
    (s : SingletonVariable) : Prop where
  declared : inj.class? s.className = some c
  scope : c.scope ≠ .prototype
  lazy : s.lazy = true → c.scope = .singleton
  subclass : c.isIntercepted = true → p.hasSubclass c.name = true

/-- The variables are numbered in the order in which they were taken, and each is held by a class
of its own. -/
structure Progress.Valid (inj : Injector) (p : Progress) : Prop where
  names : p.singletons.map (·.name)
    = (List.range p.singletons.length).map fun i => inj.options.singletonPrefix ++ toString i
  distinct : (p.singletons.map (·.className)).Nodup
  held : ∀ s ∈ p.singletons, ∃ c, s.HeldBy inj p c

namespace Progress

variable {inj : Injector} {p q : Progress} {c : ManagedClass}

/-! ### Subclasses -/

/-- A subclass that has been added stays. -/
theorem hasSubclass_of_prefix {className : String} (grows : p.subclasses <+: q.subclasses)
    (h : p.hasSubclass className = true) :
  q.hasSubclass className = true
  := by
  obtain ⟨s, hs, base⟩ := List.any_eq_true.mp h
  apply List.any_eq_true.mpr
  use s, grows.subset hs

/-- An intercepted class that is used has its subclass. -/
theorem hasSubclass_addSubclass (intercepted : c.isIntercepted = true) :
  (p.addSubclass inj c).hasSubclass c.name = true
  := by
  unfold addSubclass
  split
  · simp [hasSubclass, Injector.interceptingClass]
  · next h => simpa [intercepted] using h

/-- A class that needs no subclass any more adds none. -/
theorem addSubclass_eq (h : c.isIntercepted = true → p.hasSubclass c.name = true) :
  p.addSubclass inj c = p
  := by
  unfold addSubclass
  split
  · simp_all
  · rfl

/-! ### Valid variables -/

namespace Valid

theorem start (inj : Injector) :
  Progress.Valid inj {}
  where
  names := rfl
  distinct := List.nodup_nil
  held := by simp

/-- A name that begins with the prefix of variables ends in one number only. -/
theorem number_inj {start : String} {m n : Nat} (h : start ++ toString m = start ++ toString n) :
  m = n
  := by
  apply Nat.repr_injective
  simpa using h

theorem nodup_names (h : p.Valid inj) :
  (p.singletons.map (·.name)).Nodup
  := by
  rw [h.names]
  apply List.nodup_range.map
  intro m n
  apply number_inj

theorem mem_of_singleton? {className : String} {s : SingletonVariable}
    (h : p.singleton? className = some s) :
  s ∈ p.singletons
  := List.mem_of_find?_eq_some h

/-- Each variable is that of its class. -/
theorem singleton?_of_mem (h : p.Valid inj) {s : SingletonVariable} (hs : s ∈ p.singletons) :
  p.singleton? s.className = some s
  := by
  have found : (p.singleton? s.className).isSome := by
    apply List.find?_isSome.mpr
    use s, hs
    simp
  obtain ⟨t, held⟩ := Option.isSome_iff_exists.mp found
  have eq : t = s := List.inj_on_of_nodup_map h.distinct (mem_of_singleton? held) hs
    (className_of_singleton? held)
  rw [held, eq]

theorem exists_name_eq (h : p.Valid inj) {s : SingletonVariable} (hs : s ∈ p.singletons) :
  ∃ i : Nat, s.name = inj.options.singletonPrefix ++ toString i
  := by
  have named : s.name ∈ p.singletons.map (·.name) := List.mem_map_of_mem hs
  rw [h.names] at named
  obtain ⟨i, -, eq⟩ := List.mem_map.mp named
  use i, eq.symm

/-- The class of a variable that it holds. -/
theorem heldBy (h : p.Valid inj) {className : String} {s : SingletonVariable}
    (held : p.singleton? className = some s) :
  ∃ c, inj.class? className = some c ∧ s.HeldBy inj p c
  := by
  obtain ⟨c, hc⟩ := h.held s (mem_of_singleton? held)
  use c
  rw [← className_of_singleton? held]
  use hc.declared

/-- A prototype holds no variable. -/
theorem singleton?_prototype (h : p.Valid inj)
    (declared : inj.class? c.name = some c) (scope : c.scope = .prototype) :
  p.singleton? c.name = none
  := by
  cases held : p.singleton? c.name with
  | none => rfl
  | some s =>
      obtain ⟨d, declared', heldBy⟩ := h.heldBy held
      obtain rfl := Option.some.inj (declared.symm.trans declared')
      cases heldBy.scope scope

/-- No two classes hold one variable. -/
theorem eq_of_name_eq (h : p.Valid inj) {a b : String} {s t : SingletonVariable}
    (ha : p.singleton? a = some s) (hb : p.singleton? b = some t) (name : s.name = t.name) :
  a = b
  := by
  have eq : s = t := List.inj_on_of_nodup_map h.nodup_names (mem_of_singleton? ha)
    (mem_of_singleton? hb) name
  rw [← className_of_singleton? ha, ← className_of_singleton? hb, eq]

/-- A class that holds a variable adds no subclass. -/
theorem addSubclass_eq (h : p.Valid inj) {s : SingletonVariable}
    (declared : inj.class? c.name = some c) (held : p.singleton? c.name = some s) :
  p.addSubclass inj c = p
  := by
  obtain ⟨c', declared', heldBy⟩ := h.heldBy held
  obtain rfl := Option.some.inj (declared.symm.trans declared')
  apply Progress.addSubclass_eq heldBy.subclass

/-- Nothing but the variables and the subclasses matters. -/
theorem of_singletons_eq (h : p.Valid inj) (singletons : q.singletons = p.singletons)
    (subclasses : p.subclasses <+: q.subclasses) :
  q.Valid inj
  where
  names := by
    rw [singletons]
    apply h.names
  distinct := by
    rw [singletons]
    apply h.distinct
  held := by
    rw [singletons]
    intro s hs
    obtain ⟨c, hc⟩ := h.held s hs
    use c
    exact { hc with
      subclass := fun intercepted => hasSubclass_of_prefix subclasses (hc.subclass intercepted) }

theorem addSubclass (h : p.Valid inj) (c : ManagedClass) :
  (p.addSubclass inj c).Valid inj
  := h.of_singletons_eq (singletons_addSubclass _ _ _) (grows_addSubclass _ _ _).subclasses

theorem report (h : p.Valid inj) (problem : Problem) (location : Location) :
  (p.report problem location).Valid inj
  := h.of_singletons_eq rfl List.prefix_rfl

theorem emit (h : p.Valid inj) (statement : PlanStatement) :
  (p.emit statement).Valid inj
  := h.of_singletons_eq rfl List.prefix_rfl

theorem defer (h : p.Valid inj) :
  p.defer.Valid inj
  := h.of_singletons_eq rfl List.prefix_rfl

theorem resume (h : p.Valid inj) :
  p.resume.Valid inj
  := h.of_singletons_eq rfl List.prefix_rfl

theorem hold (h : p.Valid inj) (target : Option String) :
  (p.hold inj.options target).Valid inj
  := by
  cases target with
  | none => exact h.of_singletons_eq rfl List.prefix_rfl
  | some target => exact h

theorem takeSingleton (h : p.Valid inj) {lazy : Bool} (declared : inj.class? c.name = some c)
    (unheld : p.singleton? c.name = none) (scope : c.scope ≠ .prototype)
    (lazily : lazy = true → c.scope = .singleton)
    (subclass : c.isIntercepted = true → p.hasSubclass c.name = true) :
  (p.takeSingleton inj.options c.name lazy).Valid inj
  where
  names := by
    simp only [Progress.takeSingleton, List.map_append, h.names, List.length_append,
      List.length_singleton, List.range_succ, List.map_singleton]
    rfl
  distinct := by
    have fresh : ∀ s ∈ p.singletons, s.className ≠ c.name := by
      simpa [singleton?] using unheld
    simp only [Progress.takeSingleton, List.map_append, List.map_singleton]
    apply List.nodup_append.mpr
    use h.distinct, List.nodup_singleton _
    simpa using fresh
  held := by
    intro s hs
    obtain hs | hs := List.mem_append.mp hs
    · obtain ⟨d, hd⟩ := h.held s hs
      use d
      exact { hd with }
    · obtain rfl := List.mem_singleton.mp hs
      use c
      exact ⟨declared, scope, lazily, subclass⟩

/-- A shared object takes a variable when it is first used. -/
theorem takeShared (h : p.Valid inj) (declared : inj.class? c.name = some c)
    (unheld : p.singleton? c.name = none) (scope : c.scope = .singleton) (lazy : Bool) :
  ((p.addSubclass inj c).takeSingleton inj.options c.name lazy).Valid inj
  := by
  apply (h.addSubclass c).takeSingleton declared (by simpa using unheld) (by simp [scope])
    (fun _ => scope) hasSubclass_addSubclass

/-- An eager object takes a variable that is not lazy. -/
theorem takeEager (h : p.Valid inj) (declared : inj.class? c.name = some c)
    (unheld : p.singleton? c.name = none) (scope : c.scope = .eagerSingleton) :
  ((p.addSubclass inj c).takeSingleton inj.options c.name false).Valid inj
  := by
  apply (h.addSubclass c).takeSingleton declared (by simpa using unheld) (by simp [scope])
    (by simp) hasSubclass_addSubclass

theorem setLazy (h : p.Valid inj) (scope : c.scope = .singleton)
    (declared : inj.class? c.name = some c) (lazy : Bool) :
  (p.setLazy c.name lazy).Valid inj
  where
  names := by
    simp only [Progress.setLazy, List.map_map, List.length_map]
    rw [← h.names]
    apply List.map_congr_left
    intro s _
    simp only [Function.comp_apply]
    split <;> rfl
  distinct := by
    simp only [Progress.setLazy, List.map_map]
    convert h.distinct using 2
    funext s
    simp only [Function.comp_apply]
    split <;> rfl
  held := by
    intro t ht
    obtain ⟨s, hs, rfl⟩ := List.mem_map.mp ht
    obtain ⟨d, hd⟩ := h.held s hs
    use d
    split
    · next name =>
        obtain rfl : c = d := by
          apply Option.some.inj
          rw [← declared, ← hd.declared, name]
        exact ⟨hd.declared, hd.scope, fun _ => scope, hd.subclass⟩
    · exact ⟨hd.declared, hd.scope, hd.lazy, hd.subclass⟩

end Valid

end Progress

namespace Injector

open Progress

variable {inj : Injector} {site : Site} {task : Task} {p p' : Progress} {es : List Expr}

/-- Resolution keeps the variables valid. -/
theorem Resolves.valid (h : inj.Resolves site task p es p') (valid : p.Valid inj) :
  p'.Valid inj
  := by
  induction h with
  | held _ _ _ _ => apply valid.addSubclass
  | @heldLazily _ c _ _ _ _ declared _ held lazy _ ih =>
      have scope : c.scope = .singleton := by
        obtain ⟨d, declared', heldBy⟩ := valid.heldBy held
        obtain rfl := Option.some.inj (declared.symm.trans declared')
        apply heldBy.lazy lazy
      apply (ih (valid.addSubclass c)).setLazy scope declared
  | prototype _ _ _ _ _ ih => apply ih (valid.addSubclass _)
  | @singleton _ c _ _ _ declared _ unheld scope _ ih =>
      apply ih
      apply valid.takeShared declared unheld scope
  | @eagerSingleton _ c _ _ _ declared _ unheld scope _ ih =>
      apply (ih _).emit
      apply valid.takeEager declared unheld scope
  | provided _ ih => apply ih valid
  | providerFunction _ ih => apply (ih valid.defer).resume
  | call _ _ _ _ ih => apply ih valid
  | creation _ _ _ ih => apply ih valid
  | creationWithSetters _ _ _ _ ih₁ ih₂ => apply ih₂ ((ih₁ valid).hold _)
  | parameter _ _ ih₁ ih₂ => apply ih₂ (ih₁ valid)
  | setter _ _ ih₁ ih₂ => apply ih₂ (ih₁ valid)
  | absent => apply valid.report
  | cyclicObject _ _ => apply valid.report
  | cyclicCall _ _ _ => apply valid.report
  | _ => exact valid

end Injector

end Wiring
