import Wiring.Proofs.Planning
import Wiring.Proofs.Resolution.Effect

/-!
# The layout of a plan

The statements of a plan are those that construct the eager objects, one for each of them, and then
one answer for each request, in the order of the requests (`statements_layout`).

Resolution may emit a statement at any depth, while any number of expressions are unfinished.
`inj.Emission p new p'` says that it emits `new` on its way from `p` to `p'`: a statement for each
eager class that it gives a variable, and no other. A class is given a variable before its object is
constructed and its statement is emitted after that, so all that is needed for the object is emitted
in between.
-/

namespace Wiring

/-- The class whose object the statement constructs. -/
def PlanStatement.constructed? : PlanStatement → Option String
  | construct className _ _ => some className
  | answer _ _ => none

/-- The expression is the given one, or a sequence that starts with it. -/
def Expr.StartsWith (first e : Expr) : Prop :=
  e = first ∨ ∃ rest, e = .sequence (first :: rest)

/-- The statement constructs an eager object and assigns it to the variable of the statement. Calls
of setters may follow. -/
def PlanStatement.Constructs (inj : Injector) (s : PlanStatement) : Prop :=
  ∃ c target args value, s = .construct c.name target value
    ∧ inj.class? c.name = some c ∧ c.scope = .eagerSingleton
    ∧ Expr.StartsWith (.assign target (.new (inj.constructedName c) args)) value

namespace Injector

open Progress

/-- Between the two progresses the statements are emitted: one for each eager class that is given a
variable. -/
structure Emission (inj : Injector) (p : Progress) (new : List PlanStatement) (p' : Progress) :
    Prop where
  statements : p'.statements.toList = p.statements.toList ++ new
  holds : ∀ className, p.Holds className → p'.Holds className
  constructs : ∀ s ∈ new, s.Constructs inj
  nodup : (new.filterMap PlanStatement.constructed?).Nodup
  mem : ∀ className, className ∈ new.filterMap PlanStatement.constructed?
    ↔ inj.IsEager className ∧ ¬ p.Holds className ∧ p'.Holds className

/-- All that is emitted between the two progresses are such statements. -/
def Emits (inj : Injector) (p p' : Progress) : Prop :=
  ∃ new, inj.Emission p new p'

variable {inj : Injector} {site : Site} {task : Task} {p p₁ p' : Progress} {es : List Expr}
  {xs ys new : List PlanStatement} {c : ManagedClass} {target : String} {e : Expr}

/-- One emission after another. -/
theorem Emission.append (h₁ : inj.Emission p xs p₁) (h₂ : inj.Emission p₁ ys p') :
  inj.Emission p (xs ++ ys) p'
  where
  statements := by rw [h₂.statements, h₁.statements, List.append_assoc]
  holds className held := h₂.holds className (h₁.holds className held)
  constructs s hs := by
    obtain hs | hs := List.mem_append.mp hs
    · apply h₁.constructs s hs
    · apply h₂.constructs s hs
  nodup := by
    rw [List.filterMap_append]
    apply List.nodup_append'.mpr
    use h₁.nodup, h₂.nodup
    -- what the first one emits is held by then
    intro className emitted emitted'
    obtain ⟨-, -, held⟩ := (h₁.mem className).mp emitted
    obtain ⟨-, unheld, -⟩ := (h₂.mem className).mp emitted'
    apply unheld held
  mem className := by
    rw [List.filterMap_append, List.mem_append, h₁.mem, h₂.mem]
    constructor
    · rintro (⟨eager, unheld, held⟩ | ⟨eager, unheld, held⟩)
      · exact ⟨eager, unheld, h₂.holds className held⟩
      · exact ⟨eager, fun held₀ => unheld (h₁.holds className held₀), held⟩
    · rintro ⟨eager, unheld, held⟩
      by_cases held₁ : p₁.Holds className
      · left
        exact ⟨eager, unheld, held₁⟩
      · right
        exact ⟨eager, held₁, held⟩

/-- The statement of an eager object comes after those of the objects that it needs. -/
theorem Emission.construct (declared : inj.class? c.name = some c)
    (scope : c.scope = .eagerSingleton) (unheld : p.singleton? c.name = none)
    (starts : ∃ args, Expr.StartsWith (.assign target (.new (inj.constructedName c) args)) e)
    (h : inj.Emission (p.takeSingleton inj.options c.name false) new p') :
  inj.Emission p (new ++ [.construct c.name target e]) (p'.emit (.construct c.name target e))
  where
  statements := by simp [emit, h.statements]
  holds className held := by
    apply h.holds
    apply (grows_takeSingleton _ _ _ _).holds held
  constructs s hs := by
    obtain hs | hs := List.mem_append.mp hs
    · apply h.constructs s hs
    · obtain rfl := List.mem_singleton.mp hs
      obtain ⟨args, starts⟩ := starts
      use c, target, args, e
  nodup := by
    rw [List.filterMap_append]
    apply List.nodup_append'.mpr
    use h.nodup, List.nodup_singleton _
    intro className emitted same
    obtain rfl := List.mem_singleton.mp same
    apply ((h.mem _).mp emitted).2.1
    exact ⟨_, singleton?_takeSingleton_self unheld⟩
  mem className := by
    have holds_emit : (p'.emit (.construct c.name target e)).Holds className
      ↔ p'.Holds className := Iff.rfl
    rw [List.filterMap_append, List.mem_append, h.mem, holds_emit]
    by_cases eq : className = c.name
    · obtain rfl := eq
      have taken : (p.takeSingleton inj.options c.name false).Holds c.name :=
        ⟨_, singleton?_takeSingleton_self unheld⟩
      have held := h.holds _ taken
      have eager : inj.IsEager c.name := ⟨c, declared, scope⟩
      simp [PlanStatement.constructed?, not_holds_iff.mpr unheld, held, eager]
    · have same : (p.takeSingleton inj.options c.name false).Holds className
          ↔ p.Holds className := by
        rw [Holds, singleton?_takeSingleton_of_ne eq, Holds]
      simp [PlanStatement.constructed?, same, eq]

namespace Emits

/-- Nothing is emitted where no eager class is given a variable. -/
theorem nothing (statements : p'.statements = p.statements)
    (holds : ∀ className, p.Holds className → p'.Holds className)
    (eager : ∀ className, inj.IsEager className → p'.Holds className → p.Holds className) :
  inj.Emits p p'
  := by
  use []
  constructor
  case statements => simp [statements]
  case holds => exact holds
  case constructs => simp
  case nodup => simp
  case mem =>
    intro className
    simp only [List.filterMap_nil, List.not_mem_nil, false_iff]
    rintro ⟨isEager, unheld, held⟩
    apply unheld (eager className isEager held)

theorem of_holds_iff (statements : p'.statements = p.statements)
    (holds : ∀ className, p'.Holds className ↔ p.Holds className) :
  inj.Emits p p'
  := nothing statements (fun className => (holds className).mpr)
    fun className _ => (holds className).mp

theorem of_singleton?_eq (statements : p'.statements = p.statements)
    (singleton? : ∀ className, p'.singleton? className = p.singleton? className) :
  inj.Emits p p'
  := of_holds_iff statements fun className => by rw [Holds, Holds, singleton?]

theorem refl (inj : Injector) (p : Progress) :
  inj.Emits p p
  := of_singleton?_eq rfl fun _ => rfl

theorem trans (h₁ : inj.Emits p p₁) (h₂ : inj.Emits p₁ p') :
  inj.Emits p p'
  := by
  obtain ⟨xs, h₁⟩ := h₁
  obtain ⟨ys, h₂⟩ := h₂
  exact ⟨xs ++ ys, h₁.append h₂⟩

theorem addSubclass (inj : Injector) (c : ManagedClass) (p : Progress) :
  inj.Emits p (p.addSubclass inj c)
  := by
  apply of_singleton?_eq <;> simp

theorem hold (inj : Injector) (target : Option String) (p : Progress) :
  inj.Emits p (p.hold inj.options target)
  := by
  apply of_singleton?_eq <;> simp

theorem setLazy (inj : Injector) (className : String) (lazy : Bool) (p : Progress) :
  inj.Emits p (p.setLazy className lazy)
  := by
  apply of_holds_iff
  · simp
  · intro other
    simp [Holds, singleton?_setLazy]

theorem report (inj : Injector) (problem : Problem) (location : Location) (p : Progress) :
  inj.Emits p (p.report problem location)
  := of_singleton?_eq rfl fun _ => rfl

theorem defer (inj : Injector) (p : Progress) :
  inj.Emits p p.defer
  := of_singleton?_eq rfl fun _ => rfl

theorem resume (inj : Injector) (p : Progress) :
  inj.Emits p p.resume
  := of_singleton?_eq rfl fun _ => rfl

/-- A class that is not eager is given a variable without a statement. -/
theorem takeSingleton (declared : inj.class? c.name = some c) (scope : c.scope ≠ .eagerSingleton)
    (lazy : Bool) (p : Progress) :
  inj.Emits p (p.takeSingleton inj.options c.name lazy)
  := by
  apply nothing
  · simp
  · intro className
    apply (grows_takeSingleton _ _ _ _).holds
  · rintro className ⟨d, declared', eager⟩ ⟨s, held⟩
    have ne : className ≠ c.name := by
      rintro rfl
      obtain rfl := Option.some.inj (declared.symm.trans declared')
      apply scope eager
    rw [singleton?_takeSingleton_of_ne ne] at held
    use s

end Emits

/-! ### Derivations -/

/-- What is created for a variable is assigned to it first. -/
theorem Resolves.startsWith_assign (h : inj.Resolves site (.creation c (some target)) p [e] p') :
  ∃ args, Expr.StartsWith (.assign target (.new (inj.constructedName c) args)) e
  := by
  cases h with
  | @creation _ _ _ _ args _ _ _ _ =>
      use args
      left
      rfl
  | @creationWithSetters _ _ _ _ args _ calls _ _ _ _ _ =>
      use args
      right
      use calls ++ [.name target]
      rfl

/-- Resolution emits a statement for each eager class that it gives a variable. -/
theorem Resolves.emits (h : inj.Resolves site task p es p') :
  inj.Emits p p'
  := by
  induction h with
  | value _ => apply Emits.refl
  | absent => apply Emits.report
  | cyclicObject _ _ => apply Emits.report
  | held _ _ _ _ => apply Emits.addSubclass
  | heldLazily _ _ _ _ _ ih =>
      apply (Emits.addSubclass _ _ _).trans
      apply ih.trans
      apply Emits.setLazy
  | prototype _ _ _ _ _ ih => apply (Emits.addSubclass _ _ _).trans ih
  | singleton declared _ _ scope _ ih =>
      apply (Emits.addSubclass _ _ _).trans
      apply (Emits.takeSingleton declared (by simp [scope]) _ _).trans ih
  | eagerSingleton declared _ unheld scope creation ih =>
      apply (Emits.addSubclass _ _ _).trans
      obtain ⟨new, h⟩ := ih
      exact ⟨_, h.construct declared scope (by simpa using unheld) creation.startsWith_assign⟩
  | provided _ ih => exact ih
  | providerFunction _ ih =>
      apply (Emits.defer _ _).trans
      apply ih.trans
      apply Emits.resume
  | cyclicCall _ _ _ => apply Emits.report
  | call _ _ _ _ ih => exact ih
  | creation _ _ _ ih => exact ih
  | creationWithSetters _ _ _ _ ih₁ ih₂ =>
      apply ih₁.trans
      apply (Emits.hold _ _ _).trans ih₂
  | noParameters => apply Emits.refl
  | parameter _ _ ih₁ ih₂ => apply ih₁.trans ih₂
  | noSetters => apply Emits.refl
  | setter _ _ ih₁ ih₂ => apply ih₁.trans ih₂

/-! ### Whole runs -/

variable {errands : List Errand} {requests : List Request} {q : Progress}

/-- The constructions of eager objects emit what the resolution of these does. -/
theorem Serves.emits (h : inj.Serves errands p q) (eager : ∀ errand ∈ errands, errand.Eager inj) :
  inj.Emits p q
  := by
  induction h with
  | nil => apply Emits.refl
  | cons first _ ih =>
      obtain ⟨location, c, rfl, -, -⟩ := eager _ List.mem_cons_self
      apply first.emits.trans
      apply ih fun errand h => eager errand (List.mem_cons_of_mem _ h)

/-- Once every eager object is held, requests are answered by one statement each and nothing else
is emitted. -/
theorem Serves.statements_answers (h : inj.Serves (requests.map .answer) p q)
    (started : inj.Started p) :
  ∃ answers, q.statements.toList = p.statements.toList ++ answers
    ∧ List.Forall₂ (fun request s => ∃ value, s = .answer request value) requests answers
  := by
  induction requests generalizing p with
  | nil =>
      cases h
      use []
      simp
  | cons request requests ih =>
      cases h with
      | @cons _ _ _ e _ _ first rest =>
          have started' : inj.Started _ := started.of_grows
            (first.grows.trans (Errand.grows_finish (.answer request) e _))
          obtain ⟨answers, statements, forall₂⟩ := ih rest started'
          use .answer request e :: answers
          constructor
          · simp [statements, Errand.finish, emit, first.statements_eq started]
          · exact .cons ⟨e, rfl⟩ forall₂

theorem answer_of_forall₂ {requests : List Request} {answers : List PlanStatement}
    (h : List.Forall₂ (fun request s => ∃ value, s = .answer request value) requests answers) :
  ∀ s ∈ answers, ∃ request value, s = .answer request value
  := by
  induction h with
  | nil => simp
  | @cons request s requests answers answer _ ih =>
      rw [List.forall_mem_cons]
      exact ⟨⟨request, answer⟩, ih⟩

end Injector

namespace Catalog

open Injector

/-- Where cycles are looked for, the statements of a plan are those emitted while the eager objects
are constructed, and then one answer for each request, in the order of the requests. The former are
constructions of eager objects, one for each class that is left eager; each of them assigns a new
object of the class to the variable of the statement, and then at most calls its setters. -/
theorem statements_layout [Dialect] (catalog : Catalog) (options : Options) (entry : EntryPoint)
    (cycles : options.detectCycles = true) :
  let inj := catalog.injector options entry
  ∃ constructions answers,
    (catalog.planEntry options entry).value.statements = constructions ++ answers
      ∧ constructions = (inj.constructEager.run {}).2.statements.toList
      ∧ List.Forall₂ (fun request s => ∃ value, s = .answer request value) entry.requests answers
      ∧ (∀ s ∈ constructions, s.Constructs inj)
      ∧ (constructions.filterMap PlanStatement.constructed?).Nodup
      ∧ ∀ className, className ∈ constructions.filterMap PlanStatement.constructed?
        ↔ inj.IsEager className
  := by
  intro inj
  have started := started_constructed catalog entry cycles
  obtain ⟨new, emits⟩ := (serves_constructed catalog entry cycles).emits
    fun _ => eager_of_mem_constructions
  obtain ⟨answers, statements, forall₂⟩ :=
    (serves_progress catalog entry cycles).statements_answers started
  have emitted : (catalog.constructed options entry).statements.toList = new := emits.statements
  use new, answers
  refine ⟨?_, emitted.symm, forall₂, emits.constructs, emits.nodup, fun className => ?_⟩
  · rw [statements_planEntry, statements, emitted]
  · rw [emits.mem]
    constructor
    · intro h
      exact h.1
    · rintro ⟨c, declared, scope⟩
      obtain rfl := name_of_class? declared
      refine ⟨⟨c, declared, scope⟩, ?_, started c declared scope⟩
      rintro ⟨s, ⟨⟩⟩

/-- A stage and its lamp, which are there before anyone comes, and tickets. -/
def theatre : Catalog where
  classes :=
    [ { name := "Stage"
        params := ["lamp"]
        methods := [{ name := "admit", params := ["ticket"] }]
        setters := ["admit"] },
      { name := "Lamp" },
      { name := "Ticket" } ]
  modules :=
    [ { name := "Theatre"
        bindings :=
          [ { key := "stage", source := .type "Stage", scope := some .eagerSingleton },
            { key := "lamp", source := .type "Lamp", scope := some .eagerSingleton },
            { key := "ticket", source := .type "Ticket" } ] } ]

/-- A ticket and the stage are asked for. -/
def premiere : EntryPoint where
  name := "premiere"
  modules := ["Theatre"]
  requests := [⟨.ofKey "ticket", {}⟩, ⟨.ofClass "Stage", {}⟩]

theorem isEager_theatre (className : String) :
  (theatre.injector {} premiere).IsEager className ↔ className ∈ ["Stage", "Lamp"]
  := by
  have scopes : (theatre.injector {} premiere).classes.map (fun c => (c.name, c.scope))
      = [("Stage", .eagerSingleton), ("Lamp", .eagerSingleton), ("Ticket", .prototype)] := by
    rw [injector, ofEntry_eq]
    decide +kernel
  constructor
  · rintro ⟨c, declared, scope⟩
    have member := List.mem_map_of_mem (f := fun c : ManagedClass => (c.name, c.scope))
      (List.mem_of_find?_eq_some declared)
    rw [scopes, name_of_class? declared, scope] at member
    simpa using member
  · intro member
    have eager : ∀ n ∈ ["Stage", "Lamp"],
        ((theatre.injector {} premiere).class? n).map (·.scope) = some .eagerSingleton := by
      rw [injector, ofEntry_eq]
      decide +kernel
    obtain ⟨c, declared, scope⟩ := Option.map_eq_some_iff.mp (eager className member)
    use c, declared, scope

/-- The stage and the lamp are constructed by one statement each, and then the ticket and the stage
are handed out. -/
theorem statements_layout_theatre :
  ({} : Options).detectCycles = true
    ∧ ∃ constructions ticket stage,
      (theatre.planEntry {} premiere).value.statements
          = constructions
            ++ [.answer ⟨.ofKey "ticket", {}⟩ ticket, .answer ⟨.ofClass "Stage", {}⟩ stage]
        ∧ (constructions.filterMap PlanStatement.constructed?).Perm ["Stage", "Lamp"]
  := by
  use rfl
  obtain ⟨constructions, answers, statements, -, answered, -, nodup, eager⟩ :=
    statements_layout theatre {} premiere rfl
  obtain _ | ⟨⟨ticket, rfl⟩, _ | ⟨⟨stage, rfl⟩, ⟨⟩⟩⟩ := answered
  use constructions, ticket, stage, statements
  apply (List.perm_ext_iff_of_nodup nodup (by decide)).mpr
  intro className
  rw [eager, isEager_theatre]

end Catalog

end Wiring
