import Wiring.Proofs.Resolution.Service

/-!
# Sharing

What holds of shared objects over whole runs. A session is an injector and how far its resolution
has come, and what can be asked of it are calls, in any number and order: to construct the eager
objects, to answer a request by a statement, or only to resolve one. Between any two calls of a
session the variables of singletons are sound, whatever is there is kept, and a class with a
variable that is not lazy is that variable from then on (`sharing`).
-/

namespace Wiring

/-- What can be asked of the resolution for an entry point. -/
inductive Call where
  | constructEager
  | answer (request : Request)
  | resolve (request : Request)

/-- An injector, and how far its resolution has come. -/
structure Session where
  injector : Injector
  progress : Progress

namespace Session

/-- The session of an injector before the first call. -/
def start (inj : Injector) : Session where
  injector := inj
  progress := {}

/-- The session after a call. -/
def perform (s : Session) (call : Call) : Session :=
  { s with
    progress :=
      match call with
      | .constructEager => (s.injector.constructEager.run s.progress).2
      | .answer request => ((s.injector.answer request).run s.progress).2
      | .resolve request => ((s.injector.resolve request).run s.progress).2 }

/-- The session after some calls. -/
def performAll (s : Session) (calls : List Call) : Session :=
  calls.foldl perform s

/-- Cycles are looked for, and the variables are valid. -/
structure Regular (s : Session) : Prop where
  cycles : s.injector.options.detectCycles = true
  valid : s.progress.Valid s.injector

/-- The classes that hold variables: none of them constructs a new object each time, no two hold
the same one, and only those constructed on first use may be lazy. -/
structure Sound (s : Session) : Prop where
  prototype : ∀ c, s.injector.class? c.name = some c → c.scope = .prototype →
    s.progress.singleton? c.name = none
  distinct : ∀ a b v w, s.progress.singleton? a = some v → s.progress.singleton? b = some w →
    v.name = w.name → a = b
  lazy : ∀ c v, s.injector.class? c.name = some c → s.progress.singleton? c.name = some v →
    v.lazy = true → c.scope = .singleton

/-- What a later session keeps of an earlier one. -/
structure Extends (s t : Session) : Prop where
  injector : t.injector = s.injector
  deferred : t.progress.deferred = s.progress.deferred
  held : ∀ className v, s.progress.singleton? className = some v →
    ∃ w, t.progress.singleton? className = some w ∧ w.name = v.name
  settled : ∀ className v, s.progress.singleton? className = some v → v.lazy = false →
    t.progress.singleton? className = some v
  grows : s.progress.Grows t.progress

end Session

/-- The request asks for an object of the class, by its name or by a key bound to it. -/
inductive Injector.AsksFor (inj : Injector) (className : String) : Wanted → Prop where
  | byName : AsksFor inj className (.ofClass className)
  | byKey {key b} (bound : inj.binding? key = some b)
    (source : b.binding.source = .type className) :
    AsksFor inj className (.ofKey key)

namespace Injector

variable {inj : Injector} {p q : Progress}

theorem AsksFor.requested_eq {className : String} {wanted : Wanted}
    (h : inj.AsksFor className wanted) :
  inj.requested wanted = inj.objectOf className
  := by
  cases h with
  | byName => rfl
  | byKey bound source => simp [requested, bound, Injector.bound, source]

end Injector

namespace Session

variable {r s t : Session} {inj : Injector}

/-! ### Extension -/

theorem Extends.refl (s : Session) :
  s.Extends s
  where
  injector := rfl
  deferred := rfl
  held _ v h := ⟨v, h, rfl⟩
  settled _ _ h _ := h
  grows := .refl _

theorem Extends.trans (h : r.Extends s) (h' : s.Extends t) :
  r.Extends t
  where
  injector := h'.injector.trans h.injector
  deferred := h'.deferred.trans h.deferred
  held className v held := by
    obtain ⟨w, hw, name⟩ := h.held className v held
    obtain ⟨x, hx, name'⟩ := h'.held className w hw
    use x, hx
    rw [name', name]
  settled className v held settled :=
    h'.settled className v (h.settled className v held settled) settled
  grows := h.grows.trans h'.grows

/-- Resolution extends a session. -/
theorem extends_of_resolves {site : Site} {task : Task} {p p' : Progress} {es : List Expr}
    (h : inj.Resolves site task p es p') :
  Extends ⟨inj, p⟩ ⟨inj, p'⟩
  where
  injector := rfl
  deferred := h.deferred_eq
  held _ _ held := h.grows.singleton? held
  settled _ _ held settled := h.settled held settled
  grows := h.grows

theorem extends_emit (statement : PlanStatement) (p : Progress) :
  Extends ⟨inj, p⟩ ⟨inj, p.emit statement⟩
  where
  injector := rfl
  deferred := rfl
  held _ v h := ⟨v, h, rfl⟩
  settled _ _ h _ := h
  grows := Progress.grows_emit _ _

theorem extends_finish (errand : Errand) (value : Expr) (p : Progress) :
  Extends ⟨inj, p⟩ ⟨inj, errand.finish value p⟩
  := by
  cases errand with
  | construct location c => apply Extends.refl
  | answer request => apply extends_emit

theorem extends_of_serves {errands : List Errand} {p p' : Progress}
    (h : inj.Serves errands p p') :
  Extends ⟨inj, p⟩ ⟨inj, p'⟩
  := by
  induction h with
  | nil => apply Extends.refl
  | cons first _ ih => apply (extends_of_resolves first).trans ((extends_finish _ _ _).trans ih)

/-- A call extends a session. -/
theorem Regular.extends_perform (h : s.Regular) (call : Call) :
  s.Extends (s.perform call)
  := by
  have resolved := fun request => Injector.resolves_resolve h.cycles request s.progress
  cases call with
  | constructEager =>
      apply extends_of_serves (Injector.serves_constructEager h.cycles s.progress)
  | answer request => apply (extends_of_resolves (resolved request)).trans (extends_emit _ _)
  | resolve request => apply extends_of_resolves (resolved request)

/-! ### Regular sessions -/

theorem regular_start (cycles : inj.options.detectCycles = true) :
  (start inj).Regular
  where
  cycles := cycles
  valid := .start inj

/-- A call leaves a session regular. -/
theorem Regular.perform (h : s.Regular) (call : Call) :
  (s.perform call).Regular
  where
  cycles := h.cycles
  valid := by
    have resolved := fun request =>
      (Injector.resolves_resolve h.cycles request s.progress).valid h.valid
    cases call with
    | constructEager => apply (Injector.serves_constructEager h.cycles s.progress).valid h.valid
    | answer request => apply (resolved request).emit
    | resolve request => apply resolved request

theorem Regular.performAll (h : s.Regular) (calls : List Call) :
  (s.performAll calls).Regular
  := by
  induction calls generalizing s with
  | nil => exact h
  | cons call calls ih => apply ih (h.perform call)

/-- A run of calls extends a session. -/
theorem Regular.extends_performAll (h : s.Regular) (calls : List Call) :
  s.Extends (s.performAll calls)
  := by
  induction calls generalizing s with
  | nil => apply Extends.refl
  | cons call calls ih => apply (h.extends_perform call).trans (ih (h.perform call))

theorem Regular.sound (h : s.Regular) :
  s.Sound
  where
  prototype _ declared scope := h.valid.singleton?_prototype declared scope
  distinct a b v w ha hb name := h.valid.eq_of_name_eq ha hb name
  lazy c v declared held lazy := by
    obtain ⟨d, declared', heldBy⟩ := h.valid.heldBy held
    obtain rfl := Option.some.inj (declared.symm.trans declared')
    apply heldBy.lazy lazy

/-- A class with a variable that is not lazy resolves to the variable and leaves all as it is. -/
theorem Regular.resolve_settled (h : s.Regular) {className : String} {v : SingletonVariable}
    (held : s.progress.singleton? className = some v) (settled : v.lazy = false)
    {request : Request} (asks : s.injector.AsksFor className request.wanted) :
  (s.injector.resolve request).run s.progress = (.name v.name, s.progress)
  := by
  obtain ⟨c, declared, -⟩ := h.valid.heldBy held
  obtain rfl := Injector.name_of_class? declared
  have derived := Injector.resolves_resolve h.cycles request s.progress
  rw [asks.requested_eq, Injector.objectOf, declared] at derived
  have fresh : s.injector.closesCycle ⟨request.location, []⟩ (.ofClass c.name) = false := by
    simp [Injector.closesCycle, Trail.contains]
  have expected := Injector.Resolves.held declared fresh held settled
  rw [h.valid.addSubclass_eq declared held] at expected
  obtain ⟨value, progress⟩ := derived.deterministic expected
  exact Prod.ext (List.cons.inj value).1 progress

/-- Where cycles are looked for, between any two calls of the session of an injector: the
variables of singletons are sound; a later session keeps what there is, variables, declarations,
subclasses and statements, and is as deep in functions; and a class with a variable that is not
lazy resolves to that variable from then on, which reports nothing and changes nothing. -/
theorem sharing (inj : Injector) (cycles : inj.options.detectCycles = true)
    (before later : List Call) :
  let s := (start inj).performAll before
  let t := s.performAll later
  s.Sound ∧ s.Extends t
    ∧ ∀ className v request, s.progress.singleton? className = some v → v.lazy = false →
      inj.AsksFor className request.wanted →
      (inj.resolve request).run t.progress = (.name v.name, t.progress)
  := by
  intro s t
  have regular : s.Regular := (regular_start cycles).performAll before
  have first : (start inj).Extends s := (regular_start cycles).extends_performAll before
  have second : s.Extends t := regular.extends_performAll later
  use regular.sound, second
  intro className v request held settled asks
  have injector : t.injector = inj := second.injector.trans first.injector
  have held' := second.settled className v held settled
  rw [← injector] at asks ⊢
  apply (regular.performAll later).resolve_settled held' settled asks

/-- An eager bench that needs a tool, which is shared too. -/
def workshop : Injector where
  options := {}
  entry := { name := "main", modules := ["Workshop"] }
  modules := []
  bindings :=
    [ ⟨{ key := "bench", source := .type "Bench", scope := some .eagerSingleton }, "workshop"⟩,
      ⟨{ key := "tool", source := .type "Tool", scope := some .singleton }, "workshop"⟩ ]
  interceptors := []
  classes :=
    [ ⟨{ name := "Bench", params := ["tool"] }, .eagerSingleton, [], false⟩,
      ⟨{ name := "Tool" }, .singleton, [], false⟩ ]

/-- Once it has been constructed, the bench is its variable for ever. -/
theorem sharing_workshop :
  workshop.options.detectCycles = true
    ∧ ∀ later,
      let t := ((start workshop).performAll [.constructEager]).performAll later
      (workshop.resolve ⟨.ofKey "bench", {}⟩).run t.progress
        = (.name "singletonInstance0", t.progress)
  := by
  use rfl
  intro later
  obtain ⟨-, -, settled⟩ := sharing workshop rfl [.constructEager] later
  apply settled "Bench" ⟨"Bench", "singletonInstance0", false⟩
  · decide +kernel
  · rfl
  · exact .byKey rfl rfl

end Session

end Wiring
