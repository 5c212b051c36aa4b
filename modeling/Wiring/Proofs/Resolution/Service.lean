import Wiring.Proofs.Resolution.Variables

/-!
# Service

An entry point is served by errands that are run one after the other: an eager object is
constructed, or a request is answered by a statement. Each errand resolves a dependency with no
step in progress, so what holds of every resolution is carried through the service by induction on
`inj.Serves errands p q`.
-/

namespace Wiring

/-- What is resolved with no step in progress. -/
inductive Errand where
  /-- An eager object, for the binding at a position. -/
  | construct (location : Location) (c : ManagedClass)
  /-- The answer to a request. -/
  | answer (request : Request)

namespace Errand

/-- The position that problems are reported at. -/
def location : Errand → Location
  | construct location _ => location
  | answer request => request.location

/-- What the errand resolves. -/
def dependency (inj : Injector) : Errand → Dependency
  | construct _ c => .object c
  | answer request => inj.requested request.wanted

/-- What is done with the expression: an answer becomes a statement. -/
def finish (value : Expr) (p : Progress) : Errand → Progress
  | construct _ _ => p
  | answer request => p.emit (.answer request value)

variable {errand : Errand} {value : Expr} {p : Progress}

@[simp]
theorem singleton?_finish {className : String} :
  (errand.finish value p).singleton? className = p.singleton? className
  := by
  cases errand <;> rfl

@[simp]
theorem reports_finish :
  (errand.finish value p).reports = p.reports
  := by
  cases errand <;> rfl

theorem grows_finish (errand : Errand) (value : Expr) (p : Progress) :
  p.Grows (errand.finish value p)
  := by
  cases errand with
  | construct location c => apply Progress.Grows.refl
  | answer request => apply Progress.grows_emit

theorem valid_finish {inj : Injector} (h : p.Valid inj) :
  (errand.finish value p).Valid inj
  := by
  cases errand with
  | construct location c => exact h
  | answer request => apply h.emit

end Errand

namespace Injector

/-- Errands are run one after the other. -/
inductive Serves (inj : Injector) : List Errand → Progress → Progress → Prop where
  | nil {p} : Serves inj [] p p
  | cons {errand errands p e q r}
    (first : inj.Resolves ⟨errand.location, []⟩ (.dependency (errand.dependency inj)) p [e] q)
    (rest : Serves inj errands (errand.finish e q) r) :
    Serves inj (errand :: errands) p r

variable {inj : Injector} {xs ys : List Errand} {p q r : Progress}

theorem Serves.append (h : inj.Serves xs p q) (h' : inj.Serves ys q r) :
  inj.Serves (xs ++ ys) p r
  := by
  induction h with
  | nil => exact h'
  | cons first _ ih => exact .cons first (ih h')

/-- There is a point between two errands. -/
theorem Serves.split (h : inj.Serves (xs ++ ys) p r) :
  ∃ q, inj.Serves xs p q ∧ inj.Serves ys q r
  := by
  induction xs generalizing p with
  | nil => exact ⟨p, .nil, h⟩
  | cons x xs ih =>
      cases h with
      | cons first rest =>
          obtain ⟨q, before, after⟩ := ih rest
          exact ⟨q, .cons first before, after⟩

theorem Serves.grows (h : inj.Serves xs p q) :
  p.Grows q
  := by
  induction h with
  | nil => apply Progress.Grows.refl
  | cons first _ ih =>
      apply first.grows.trans
      apply (Errand.grows_finish _ _ _).trans ih

theorem Serves.valid (h : inj.Serves xs p q) (valid : p.Valid inj) :
  q.Valid inj
  := by
  induction h with
  | nil => exact valid
  | cons first _ ih => apply ih (Errand.valid_finish (first.valid valid))

/-- Errands are run in one way only. -/
theorem Serves.deterministic (h₁ : inj.Serves xs p q) (h₂ : inj.Serves xs p r) :
  q = r
  := by
  induction h₁ with
  | nil =>
      cases h₂
      rfl
  | cons first _ ih =>
      obtain _ | ⟨first', rest⟩ := h₂
      obtain ⟨eq, rfl⟩ := first.deterministic first'
      obtain rfl := List.singleton_inj.mp eq
      exact ih rest

/-! ### The errands of an entry point -/

/-- The construction of every eager object. -/
def constructions (inj : Injector) : List Errand :=
  inj.eagerBindings.map fun (b, c) => .construct b.binding.location c

/-- All that is done for the entry point. -/
def errands (inj : Injector) : List Errand :=
  inj.constructions ++ inj.entry.requests.map .answer

/-- What stands among the eager bindings is a declared class that is constructed eagerly. -/
theorem of_mem_eagerBindings {b : OwnedBinding} {c : ManagedClass}
    (h : (b, c) ∈ inj.eagerBindings) :
  inj.class? c.name = some c ∧ c.scope = .eagerSingleton
  := by
  obtain ⟨b', -, heq⟩ := List.mem_filterMap.mp h
  split at heq
  · obtain ⟨d, hd, heq⟩ := Option.map_eq_some_iff.mp heq
    obtain ⟨hd, eager⟩ := Option.filter_eq_some_iff.mp hd
    obtain ⟨name, -, hd⟩ := Option.bind_eq_some_iff.mp hd
    obtain ⟨-, rfl⟩ := Prod.mk.inj heq
    constructor
    · rw [name_of_class? hd, hd]
    · simpa [Scope.isEager] using eager
  · cases heq

/-- A resolution with no step in progress is a derivation. -/
theorem resolves_resolveAt (cycles : inj.options.detectCycles = true) (location : Location)
    {d : Dependency} (offers : inj.Offers d) (p : Progress) :
  inj.Resolves ⟨location, []⟩ (.dependency d) p [((inj.resolveAt location d).run p).1]
    ((inj.resolveAt location d).run p).2
  := resolves_outermost cycles location 0 d p offers

theorem resolves_resolve (cycles : inj.options.detectCycles = true) (request : Request)
    (p : Progress) :
  inj.Resolves ⟨request.location, []⟩ (.dependency (inj.requested request.wanted)) p
    [((inj.resolve request).run p).1] ((inj.resolve request).run p).2
  := resolves_resolveAt cycles request.location (inj.offers_requested request.wanted) p

theorem serves_constructEager (cycles : inj.options.detectCycles = true) (p : Progress) :
  inj.Serves inj.constructions p (inj.constructEager.run p).2
  := by
  have declared : ∀ x ∈ inj.eagerBindings, inj.class? x.2.name = some x.2 :=
    fun x hx => (of_mem_eagerBindings hx).1
  unfold constructEager constructions
  generalize inj.eagerBindings = eager at declared
  induction eager generalizing p with
  | nil => apply Serves.nil
  | cons x eager ih =>
      obtain ⟨b, c⟩ := x
      have offers : inj.Offers (.object c) := declared (b, c) List.mem_cons_self
      apply @Serves.cons inj (.construct b.binding.location c)
      · apply resolves_resolveAt cycles _ offers
      · apply ih
        intro y hy
        apply declared y (List.mem_cons_of_mem _ hy)

theorem serves_requests (cycles : inj.options.detectCycles = true) (requests : List Request)
    (p : Progress) :
  inj.Serves (requests.map .answer) p ((requests.forM inj.answer).run p).2
  := by
  induction requests generalizing p with
  | nil => apply Serves.nil
  | cons request requests ih => apply Serves.cons (resolves_resolve cycles request p) (ih _)

end Injector

end Wiring
