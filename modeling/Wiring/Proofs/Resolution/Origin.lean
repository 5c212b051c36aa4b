import Wiring.Proofs.Resolution.Cycles
import Wiring.Proofs.Resolution.Layout

/-!
# Where statements come from

A statement is emitted for an eager object or for a request, and it holds the expression that the
construction of the object or the resolution of the request has given. So what is true of all such
expressions is true of the statements of a plan (`Serves.origin`).

The eager objects are constructed in the order of these statements (`Plan.constructionOrder`), which
lists every eager class once.
-/

namespace Wiring

open Relation Progress

namespace Injector

/-- Where a statement comes from that has been emitted on the way to a progress, when resolution
started with certain steps. -/
inductive Origin (inj : Injector) (starts : Step → Prop) (q : Progress) : PlanStatement → Prop where
  /-- It constructs an eager object that one of the steps needs. -/
  | construct {site c target step p e p'}
    (declared : inj.class? c.name = some c) (scope : c.scope = .eagerSingleton)
    (started : starts step) (needed : ReflTransGen inj.Edge step (.ofClass c.name))
    (valid : p.Valid inj) (held : p.singleton? c.name = some ⟨c.name, target, false⟩)
    (creation : inj.Resolves site (.creation c (some target)) p [e] p') (grows : p'.Grows q) :
    Origin inj starts q (.construct c.name target e)
  /-- It answers a request. -/
  | answer {request p e p'} (valid : p.Valid inj)
    (resolution : inj.Resolves ⟨request.location, []⟩
      (.dependency (inj.requested request.wanted)) p [e] p') (grows : p'.Grows q) :
    Origin inj starts q (.answer request e)

variable {inj : Injector} {site : Site} {task : Task} {p p' q r : Progress} {es : List Expr}
  {s : PlanStatement} {starts later : Step → Prop} {errands : List Errand}

/-- A statement stays where it comes from. -/
theorem Origin.of_grows (h : inj.Origin starts q s) (grows : q.Grows r) :
  inj.Origin starts r s
  := by
  cases h with
  | construct declared scope started needed valid held creation before =>
      apply Origin.construct declared scope started needed valid held creation
      apply before.trans grows
  | answer valid resolution before =>
      apply Origin.answer valid resolution
      apply before.trans grows

/-- What starts later is needed for what started before. -/
theorem Origin.of_starts (h : inj.Origin later q s)
    (needed : ∀ step, later step → ∃ first, starts first ∧ ReflTransGen inj.Edge first step) :
  inj.Origin starts q s
  := by
  cases h with
  | construct declared scope started path valid held creation grows =>
      obtain ⟨first, started', path'⟩ := needed _ started
      apply Origin.construct declared scope started' (path'.trans path) valid held creation grows
  | answer valid resolution grows => apply Origin.answer valid resolution grows

theorem Origin.of_imp (h : inj.Origin later q s) (imp : ∀ step, later step → starts step) :
  inj.Origin starts q s
  := by
  apply h.of_starts
  intro step started
  use step, imp step started

theorem Origin.of_edge (h : inj.Origin later q s) (first : Step)
    (edge : ∀ step, later step → inj.Edge first step) :
  inj.Origin (· = first) q s
  := by
  apply h.of_starts
  intro step started
  use first, rfl, .single (edge step started)

/-- What resolution emits is emitted for an eager object that it needs. -/
theorem Resolves.origin (h : inj.Resolves site task p es p') (valid : p.Valid inj)
    (member : s ∈ p'.statements.toList) :
  s ∈ p.statements.toList ∨ inj.Origin (task.Starts inj) p' s
  := by
  induction h with
  | held _ _ _ _ =>
      left
      simpa using member
  | @heldLazily _ c p _ _ p' _ _ _ _ _ ih =>
      obtain before | origin := ih (valid.addSubclass c) member
      · left
        simpa using before
      · right
        apply origin.of_grows (grows_setLazy _ _ _)
  | @prototype _ c p _ p' _ _ _ _ _ ih =>
      obtain before | origin := ih (valid.addSubclass c) member
      · left
        simpa using before
      · right
        exact origin
  | @singleton _ c p _ p' declared _ unheld scope _ ih =>
      obtain before | origin := ih (valid.takeShared declared unheld scope _) member
      · left
        simpa using before
      · right
        exact origin
  | @eagerSingleton _ c p e p' declared _ unheld scope creation ih =>
      have valid' := valid.takeEager declared unheld scope
      have held : ((p.addSubclass inj c).takeSingleton inj.options c.name false).singleton? c.name
          = some ⟨c.name, p.nextSingleton inj.options, false⟩ :=
        singleton?_takeSingleton_addSubclass unheld
      simp only [emit, Array.toList_push, List.mem_append, List.mem_singleton] at member
      obtain member | rfl := member
      · obtain before | origin := ih valid' member
        · left
          simpa using before
        · right
          apply origin.of_grows (grows_emit _ _)
      · right
        have started : (Task.dependency (.object c)).Starts inj (.ofClass c.name) := rfl
        apply Origin.construct declared scope started .refl valid' held creation (grows_emit _ _)
  | provided _ ih => apply ih valid member
  | providerFunction _ ih =>
      obtain before | origin := ih valid.defer member
      · left
        exact before
      · right
        apply origin.of_grows (grows_resume _)
  | call bound source _ _ ih =>
      obtain before | origin := ih valid member
      · left
        exact before
      · right
        apply origin.of_edge (.ofProvider _)
        intro step starts
        apply edge_of_provider bound source starts
  | creation declared _ _ ih =>
      obtain before | origin := ih valid member
      · left
        exact before
      · right
        apply origin.of_edge (.ofClass _)
        intro step starts
        apply edge_of_parameters declared starts
  | creationWithSetters declared _ parameters setters ih₁ ih₂ =>
      obtain between | origin := ih₂ ((parameters.valid valid).hold _) member
      · rw [statements_hold] at between
        obtain before | origin := ih₁ valid between
        · left
          exact before
        · right
          apply Origin.of_grows _ ((grows_hold _ _ _).trans setters.grows)
          apply origin.of_edge (.ofClass _)
          intro step starts
          apply edge_of_parameters declared starts
      · right
        apply origin.of_edge (.ofClass _)
        intro step starts
        apply edge_of_setters declared starts
  | parameter first rest ih₁ ih₂ =>
      obtain between | origin := ih₂ (first.valid valid) member
      · obtain before | origin := ih₁ valid between
        · left
          exact before
        · right
          apply (origin.of_grows rest.grows).of_imp
          intro step starts
          apply starts_parameters_cons.mpr (.inl starts)
      · right
        apply origin.of_imp
        intro step starts
        apply starts_parameters_cons.mpr (.inr starts)
  | setter first rest ih₁ ih₂ =>
      obtain between | origin := ih₂ (first.valid valid) member
      · obtain before | origin := ih₁ valid between
        · left
          exact before
        · right
          apply (origin.of_grows rest.grows).of_imp
          intro step starts
          apply starts_setters_cons.mpr (.inl starts)
      · right
        apply origin.of_imp
        intro step starts
        apply starts_setters_cons.mpr (.inr starts)
  | _ =>
      left
      exact member

/-- What errands emit is emitted for an eager object that one of them needs, or for a request. -/
theorem Serves.origin (h : inj.Serves errands p q) (valid : p.Valid inj)
    (member : s ∈ q.statements.toList) :
  s ∈ p.statements.toList ∨ inj.Origin (fun step => ∃ e ∈ errands, inj.Needs e step) q s
  := by
  induction h with
  | nil =>
      left
      exact member
  | @cons errand errands p e p' q first rest ih =>
      have valid' := first.valid valid
      have grows : p'.Grows q := (errand.grows_finish e p').trans rest.grows
      obtain between | origin := ih (Errand.valid_finish valid') member
      · have emitted : s ∈ p'.statements.toList ∨ inj.Origin
            (fun step => ∃ e ∈ errand :: errands, inj.Needs e step) q s := by
          cases errand with
          | construct location c =>
              left
              exact between
          | answer request =>
              simp only [Errand.finish, emit, Array.toList_push, List.mem_append,
                List.mem_singleton] at between
              obtain between | rfl := between
              · left
                exact between
              · right
                apply Origin.answer valid first grows
        obtain between | origin := emitted
        · obtain before | origin := first.origin valid between
          · left
            exact before
          · right
            apply (origin.of_grows grows).of_imp
            intro step starts
            use errand, List.mem_cons_self, starts_dependency_iff.mp starts
        · right
          exact origin
      · right
        apply origin.of_imp
        rintro step ⟨other, member, needs⟩
        use other, List.mem_cons_of_mem _ member, needs

end Injector

/-! ### The order of construction -/

/-- The classes whose objects are constructed by statements of their own, in the order of these. -/
def Plan.constructionOrder (plan : Plan) : List String :=
  plan.statements.filterMap PlanStatement.constructed?

/-- The classes whose objects are constructed by the statements so far, in the order of these. -/
def Progress.constructionOrder (p : Progress) : List String :=
  p.statements.toList.filterMap PlanStatement.constructed?

namespace Progress

variable {p q : Progress}

theorem constructionOrder_eq_of_statements_eq (h : q.statements = p.statements) :
  q.constructionOrder = p.constructionOrder
  := by
  rw [constructionOrder, h, constructionOrder]

@[simp]
theorem constructionOrder_emit_construct (className target : String) (e : Expr) :
  (p.emit (.construct className target e)).constructionOrder = p.constructionOrder ++ [className]
  := by
  simp [constructionOrder, emit, PlanStatement.constructed?]

theorem Grows.constructionOrder (h : p.Grows q) :
  p.constructionOrder <+: q.constructionOrder
  := h.statements.filterMap _

end Progress

namespace Catalog

open Injector

variable [Dialect] {options : Options}

section

variable (catalog : Catalog) (entry : EntryPoint) (cycles : options.detectCycles = true)

include cycles

/-- The answers construct no eager object by a statement. -/
theorem constructionOrder_planEntry :
  (catalog.planEntry options entry).value.constructionOrder
    = (catalog.constructed options entry).constructionOrder
  := by
  obtain ⟨answers, statements, answered⟩ :=
    (serves_progress catalog entry cycles).statements_answers
      (started_constructed catalog entry cycles)
  have none : answers.filterMap PlanStatement.constructed? = [] := by
    apply List.filterMap_eq_nil_iff.mpr
    intro s member
    obtain ⟨request, value, rfl⟩ := answer_of_forall₂ answered s member
    rfl
  rw [Plan.constructionOrder, statements_planEntry, statements, List.filterMap_append, none,
    List.append_nil]
  rfl

/-- No eager object is constructed by two statements. -/
theorem nodup_constructionOrder :
  (catalog.planEntry options entry).value.constructionOrder.Nodup
  := by
  obtain ⟨new, emits⟩ := (serves_constructed catalog entry cycles).emits
    fun _ => eager_of_mem_constructions
  rw [constructionOrder_planEntry catalog entry cycles, Progress.constructionOrder,
    emits.statements]
  apply emits.nodup

/-- The objects that are constructed by statements are the eager ones. -/
theorem mem_constructionOrder_iff {className : String} :
  className ∈ (catalog.planEntry options entry).value.constructionOrder
    ↔ (catalog.injector options entry).IsEager className
  := by
  obtain ⟨new, emits⟩ := (serves_constructed catalog entry cycles).emits
    fun _ => eager_of_mem_constructions
  have order : (catalog.constructed options entry).constructionOrder
      = new.filterMap PlanStatement.constructed? := by
    rw [Progress.constructionOrder, emits.statements]
    rfl
  rw [constructionOrder_planEntry catalog entry cycles, order, emits.mem]
  constructor
  · rintro ⟨eager, -⟩
    exact eager
  · rintro ⟨c, declared, scope⟩
    obtain rfl := name_of_class? declared
    refine ⟨⟨c, declared, scope⟩, ?_, started_constructed catalog entry cycles c declared scope⟩
    rintro ⟨s, ⟨⟩⟩

end

end Catalog

end Wiring
