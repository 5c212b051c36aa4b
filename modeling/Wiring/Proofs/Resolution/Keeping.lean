import Wiring.Proofs.Resolution.Weaving

/-!
# What every run keeps

A property of progress that each step of resolution keeps is kept by all of it, to any depth and
whether or not cycles are looked for. Since only `addSubclass` adds subclasses, and only those of
declared classes, the subclasses in a plan are those of intercepted classes, one for each
(`Catalog.woven_progress`).
-/

namespace Wiring

/-- The property holds after the computation if it does before. -/
def Resolving.Keeps (P : Progress → Prop) {α : Type} (x : Resolving α) : Prop :=
  ∀ p, P p → P (x.run p).2

namespace Resolving.Keeps

variable {P : Progress → Prop} {α β : Type}

theorem pure (a : α) :
  Keeps P (Pure.pure a)
  := by
  intro p h
  exact h

theorem get :
  Keeps P get
  := by
  intro p h
  exact h

theorem modify {f : Progress → Progress} (h : ∀ p, P p → P (f p)) :
  Keeps P (modify f)
  := h

theorem bind {x : Resolving α} {f : α → Resolving β} (hx : Keeps P x) (hf : ∀ a, Keeps P (f a)) :
  Keeps P (x >>= f)
  := by
  intro p h
  apply hf (x.run p).1 (x.run p).2 (hx p h)

theorem mapM {f : α → Resolving β} {xs : List α} (h : ∀ a ∈ xs, Keeps P (f a)) :
  Keeps P (xs.mapM f)
  := by
  induction xs with
  | nil => apply pure
  | cons x xs ih =>
      rw [List.forall_mem_cons] at h
      rw [List.mapM_cons]
      apply h.1.bind
      intro b
      apply (ih h.2).bind
      intro bs
      apply pure

theorem forM {f : α → Resolving Unit} {xs : List α} (h : ∀ a ∈ xs, Keeps P (f a)) :
  Keeps P (xs.forM f)
  := by
  induction xs with
  | nil => apply pure
  | cons x xs ih =>
      rw [List.forall_mem_cons] at h
      apply h.1.bind
      intro _
      apply ih h.2

end Resolving.Keeps

namespace Injector

open Resolving

variable {inj : Injector} {resolve : Resolver} {site : Site} {c : ManagedClass}

/-- A change that leaves the subclasses alone. -/
theorem keeps_modify {f : Progress → Progress} (h : ∀ p, (f p).subclasses = p.subclasses) :
  Keeps (Progress.Woven inj) (modify f)
  := Keeps.modify fun p woven => woven.of_subclasses_eq (h p)

theorem keeps_unresolved (site : Site) (problem : Problem) :
  Keeps (Progress.Woven inj) (unresolved site problem)
  := Keeps.bind (keeps_modify fun _ => rfl) fun _ => .pure _

/-- The resolver adds subclasses of intercepted classes only, one for each. -/
def Weaves (inj : Injector) (resolve : Resolver) : Prop :=
  ∀ site d, inj.Offers d → Keeps (Progress.Woven inj) (resolve site d)

theorem Weaves.resolveAll (h : inj.Weaves resolve) (site : Site) (names : List String) :
  Keeps (Progress.Woven inj) (inj.resolveAll resolve site names)
  := Keeps.mapM fun name _ => h site _ (inj.offers_parameter name)

theorem Weaves.provide (h : inj.Weaves resolve) (site : Site) (b : OwnedBinding)
    (params : List String) :
  Keeps (Progress.Woven inj) (inj.provide resolve site b params)
  := by
  unfold Injector.provide
  dsimp only
  split
  · apply keeps_unresolved
  · exact (h.resolveAll _ params).bind fun _ => .pure _

theorem Weaves.provideLater (h : inj.Weaves resolve) (site : Site) (b : OwnedBinding)
    (params : List String) :
  Keeps (Progress.Woven inj) (inj.provideLater resolve site b params)
  := by
  apply Keeps.bind
  · exact keeps_modify fun _ => rfl
  intro _
  apply (h.provide site b params).bind
  intro call
  exact Keeps.bind (keeps_modify fun _ => rfl) fun _ => .pure _

theorem Weaves.callSetter (h : inj.Weaves resolve) (site : Site) (c : ManagedClass)
    (target setter : String) :
  Keeps (Progress.Woven inj) (inj.callSetter resolve site c target setter)
  := (h.resolveAll site _).bind fun _ => .pure _

theorem keeps_temporary :
  Keeps (Progress.Woven inj) inj.temporary
  := Keeps.bind .get fun _ => Keeps.bind (keeps_modify fun _ => rfl) fun _ => .pure _

theorem Weaves.create (h : inj.Weaves resolve) (site : Site) (c : ManagedClass)
    (target : Option String) :
  Keeps (Progress.Woven inj) (inj.create resolve site c target)
  := by
  apply (h.resolveAll _ c.decl.params).bind
  intro args
  split
  · cases target with
    | none => apply Keeps.pure
    | some target => apply Keeps.pure
  · have calls : ∀ target, Keeps (Progress.Woven inj) (do
        let calls ← c.decl.setters.mapM
          (inj.callSetter resolve (site.enter (.ofClass c.name)) c target)
        return Expr.sequence
          (.assign target (.new (inj.constructedName c) args) :: calls ++ [.name target])) :=
      fun target => (Keeps.mapM fun setter _ => h.callSetter _ c target setter).bind
        fun _ => .pure _
    cases target with
    | none => apply keeps_temporary.bind calls
    | some target => apply calls

theorem keeps_shared (c : ManagedClass) (lazy : Bool) :
  Keeps (Progress.Woven inj) (inj.shared c lazy)
  := Keeps.bind .get fun _ => Keeps.bind (keeps_modify fun _ => rfl) fun _ => .pure _

theorem Weaves.firstUse (h : inj.Weaves resolve) (site : Site) (c : ManagedClass) :
  Keeps (Progress.Woven inj) (inj.firstUse resolve site c)
  := by
  unfold Injector.firstUse
  split
  · apply h.create
  · refine Keeps.bind .get fun p => ?_
    apply (keeps_shared c _).bind
    intro target
    exact (h.create site c _).bind fun _ => .pure _
  · apply (keeps_shared c false).bind
    intro target
    apply (h.create site c _).bind
    intro value
    exact Keeps.bind (keeps_modify fun _ => rfl) fun _ => .pure _

theorem Weaves.laterUse (h : inj.Weaves resolve) (site : Site) (c : ManagedClass)
    (held : SingletonVariable) :
  Keeps (Progress.Woven inj) (inj.laterUse resolve site c held)
  := by
  unfold Injector.laterUse
  split
  · apply (h.create site c _).bind
    intro value
    exact Keeps.bind (keeps_modify fun _ => rfl) fun _ => .pure _
  · apply Keeps.pure

theorem Weaves.useClass (h : inj.Weaves resolve) (site : Site)
    (declared : inj.class? c.name = some c) :
  Keeps (Progress.Woven inj) (inj.useClass resolve site c)
  := by
  unfold Injector.useClass
  dsimp only
  split
  · apply keeps_unresolved
  · apply (Keeps.modify fun p woven => Progress.Woven.addSubclass woven declared).bind
    intro _
    refine Keeps.bind .get fun p => ?_
    split
    · apply h.laterUse
    · apply h.firstUse

theorem Weaves.resolveOnce (h : inj.Weaves resolve) :
  inj.Weaves (inj.resolveOnce resolve)
  := by
  intro site d offers
  cases d with
  | value e => apply Keeps.pure
  | absent problem => apply keeps_unresolved
  | object c => apply h.useClass site offers
  | provided b params => apply h.provide
  | providerFunction b params => apply h.provideLater

theorem weaves_resolveTo (inj : Injector) (depth : Nat) :
  inj.Weaves (inj.resolveTo depth)
  := by
  induction depth with
  | zero =>
      intro site _ _
      apply keeps_unresolved
  | succ depth ih => apply ih.resolveOnce

theorem keeps_serve (inj : Injector) :
  Keeps (Progress.Woven inj) inj.serve
  := by
  have weaves := inj.weaves_resolveTo inj.depth
  apply Keeps.bind
  · apply Keeps.forM
    rintro ⟨b, c⟩ member
    apply (weaves _ (.object c) (of_mem_eagerBindings member).1).bind
    intro _
    apply Keeps.pure
  · intro _
    apply Keeps.forM
    intro request _
    apply (weaves _ _ (inj.offers_requested request.wanted)).bind
    intro _
    exact keeps_modify fun _ => rfl

end Injector

namespace Catalog

open Injector

/-- The subclasses in a plan are those of intercepted classes, one for each. -/
theorem woven_progress [Dialect] (catalog : Catalog) (options : Options) (entry : EntryPoint) :
  (catalog.progress options entry).Woven (catalog.injector options entry)
  := keeps_serve (catalog.injector options entry) {} (.start _)

end Catalog

end Wiring
