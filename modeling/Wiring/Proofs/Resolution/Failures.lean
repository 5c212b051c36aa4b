import Wiring.Proofs.Expr.Nodes
import Wiring.Proofs.Planning

/-!
# Failures

Whatever cannot be resolved is reported and stands in the plan as `null`. Nothing that has been
resolved is dropped or used twice, so there are as many reports of failed look-ups as there are
`null`s in the plan (`failures_eq_nulls`), and each report is made at the position of what is served
at that moment, however deep the failure lies.
-/

namespace Wiring

/-- The number of `null`s in the expressions. -/
def Expr.nulls (es : List Expr) : Nat :=
  (visitedAll es).countP isNull

namespace Expr

@[simp]
theorem nulls_nil :
  nulls [] = 0
  := rfl

theorem nulls_cons (e : Expr) (es : List Expr) :
  nulls (e :: es) = nulls [e] + nulls es
  := by
  simp [nulls]

@[simp]
theorem nulls_null :
  nulls [.null] = 1
  := rfl

@[simp]
theorem nulls_name (name : String) :
  nulls [.name name] = 0
  := rfl

theorem nulls_value (e : Expr) :
  nulls [e] = e.count isNull
  := by
  simp [nulls, count]

@[simp]
theorem nulls_once (target : String) (e : Expr) :
  nulls [.once target e] = nulls [e]
  := by
  simp [nulls, once, visited, isNull]

@[simp]
theorem nulls_delayed (e : Expr) :
  nulls [.delayed e] = nulls [e]
  := by
  simp [nulls, delayed, visited, Stmt.visitedAll, Stmt.visited, isNull]

@[simp]
theorem nulls_callMember (object property : String) (args : List Expr) :
  nulls [.call (.member (.name object) property) args] = nulls args
  := by
  simp [nulls, visited, isNull]

@[simp]
theorem nulls_assignedTo (target : Option String) (className : String) (args : List Expr) :
  nulls [.assignedTo target (.new className args)] = nulls args
  := by
  cases target <;> simp [nulls, assignedTo, visited, isNull]

@[simp]
theorem nulls_withSetters (target className : String) (args calls : List Expr) :
  nulls [.sequence (.assign target (.new className args) :: (calls ++ [.name target]))]
    = nulls args + nulls calls
  := by
  simp [nulls, visited, isNull]

end Expr

namespace Progress

/-- The number of `null`s in the statements. -/
def nulls (p : Progress) : Nat :=
  p.nodes.countP Expr.isNull

/-- What has been reported between the two progresses are as many failures as there are `null`s in
the expressions and in the statements between. -/
def Balanced (p : Progress) (es : List Expr) (p' : Progress) : Prop :=
  p'.reports.size + p.nulls = p.reports.size + (Expr.nulls es + p'.nulls)

/-- What has been reported between the two progresses are failed look-ups, all at the position. -/
def ReportsAt (p : Progress) (location : Location) (p' : Progress) : Prop :=
  ∃ new, p'.reports.toList = p.reports.toList ++ new
    ∧ ∀ d ∈ new, d.location = location ∧ d.problem.stage = .resolution

variable {p p₁ p' q q' : Progress} {xs ys es : List Expr} {e : Expr} {location : Location}

theorem nulls_eq_of_statements_eq (h : q.statements = p.statements) :
  q.nulls = p.nulls
  := by
  rw [nulls, nodes_eq_of_statements_eq h, nulls]

theorem nulls_emit (s : PlanStatement) (p : Progress) :
  (p.emit s).nulls = p.nulls + Expr.nulls [s.value]
  := by
  simp [nulls, Expr.nulls]

namespace Balanced

theorem refl (p : Progress) :
  p.Balanced [] p
  := by
  simp [Balanced]

/-- One resolution after another, whose expressions are put together. -/
theorem trans (h₁ : p.Balanced xs p₁) (h₂ : p₁.Balanced ys p')
    (es_eq : Expr.nulls es = Expr.nulls xs + Expr.nulls ys) :
  p.Balanced es p'
  := by
  unfold Balanced at *
  omega

/-- A failure is reported, and `null` takes the place of the value. -/
theorem report (problem : Problem) (location : Location) (p : Progress) :
  p.Balanced [.null] (p.report problem location)
  := by
  have size_eq : (p.report problem location).reports.size = p.reports.size + 1 :=
    Array.size_push _
  have same : (p.report problem location).nulls = p.nulls := nulls_eq_of_statements_eq rfl
  rw [Balanced, size_eq, same, Expr.nulls_null]
  omega

/-- Nothing but the reports, the statements and the number of `null`s matters. -/
theorem congr (h : q.Balanced xs q') (reports : p.reports = q.reports)
    (statements : p.statements = q.statements) (reports' : p'.reports = q'.reports)
    (statements' : p'.statements = q'.statements) (es_eq : Expr.nulls es = Expr.nulls xs) :
  p.Balanced es p'
  := by
  unfold Balanced at *
  rw [reports, reports', es_eq, nulls_eq_of_statements_eq statements,
    nulls_eq_of_statements_eq statements', h]

/-- An expression may be kept in a statement instead. -/
theorem emit (h : p.Balanced [e] p') (s : PlanStatement) (value : s.value = e)
    (es_eq : Expr.nulls es = 0) :
  p.Balanced es (p'.emit s)
  := by
  unfold Balanced at *
  rw [nulls_emit, value, es_eq]
  simp only [Progress.emit]
  omega

end Balanced

namespace ReportsAt

theorem refl (p : Progress) (location : Location) :
  p.ReportsAt location p
  := by
  use []
  simp

theorem trans (h₁ : p.ReportsAt location p₁) (h₂ : p₁.ReportsAt location p') :
  p.ReportsAt location p'
  := by
  obtain ⟨xs, eq₁, located₁⟩ := h₁
  obtain ⟨ys, eq₂, located₂⟩ := h₂
  use xs ++ ys
  constructor
  · rw [eq₂, eq₁, List.append_assoc]
  · intro d hd
    obtain hd | hd := List.mem_append.mp hd
    · apply located₁ d hd
    · apply located₂ d hd

theorem report {problem : Problem} (stage : problem.stage = .resolution) (location : Location)
    (p : Progress) :
  p.ReportsAt location (p.report problem location)
  := by
  use [⟨problem, location⟩]
  simp [Progress.report, stage]

/-- Nothing but the reports matters. -/
theorem congr (h : q.ReportsAt location q') (reports : p.reports = q.reports)
    (reports' : p'.reports = q'.reports) :
  p.ReportsAt location p'
  := by
  obtain ⟨new, eq, located⟩ := h
  use new
  rw [reports, reports', eq]
  use rfl, located

end ReportsAt

end Progress

namespace Injector

open Progress

variable {inj : Injector} {site : Site} {task : Task} {p p' q : Progress} {es : List Expr}
  {name : String} {wanted : Wanted} {problem : Problem} {errands : List Errand}

/-! ### Derivations -/

/-- What a name leads to is absent for want of a binding, a provider or a class. -/
theorem stage_of_parameter (h : inj.parameter name = .absent problem) :
  problem.stage = .resolution
  := by
  unfold parameter providerOf Injector.bound objectOf at h
  grind [Problem.stage]

theorem stage_of_requested (h : inj.requested wanted = .absent problem) :
  problem.stage = .resolution
  := by
  unfold requested Injector.bound objectOf at h
  grind [Problem.stage]

/-- The bound values have no `null` inside. -/
def NullFree (inj : Injector) : Prop :=
  ∀ b ∈ inj.bindings, ∀ e, b.binding.source = .value e → e.count Expr.isNull = 0

/-- Resolution reports as many failures as it leaves `null`s. -/
theorem Resolves.balanced (values : inj.NullFree) (h : inj.Resolves site task p es p') :
  p.Balanced es p'
  := by
  induction h with
  | value bound =>
      obtain ⟨b, member, source⟩ := bound
      apply (Balanced.refl _).congr rfl rfl rfl rfl
      rw [Expr.nulls_value, values b member _ source, Expr.nulls_nil]
  | absent => apply Balanced.report
  | cyclicObject _ _ => apply Balanced.report
  | held _ _ _ _ => apply (Balanced.refl _).congr rfl rfl (by simp) (by simp) (by simp)
  | heldLazily _ _ _ _ _ ih => apply ih.congr (by simp) (by simp) rfl rfl (by simp)
  | prototype _ _ _ _ _ ih => apply ih.congr (by simp) (by simp) rfl rfl rfl
  | singleton _ _ _ _ _ ih => apply ih.congr (by simp [takeSingleton]) (by simp) rfl rfl (by simp)
  | eagerSingleton _ _ _ _ _ ih =>
      apply Balanced.emit _ _ rfl (Expr.nulls_name _)
      apply ih.congr (by simp [takeSingleton]) (by simp) rfl rfl rfl
  | provided _ ih => exact ih
  | providerFunction _ ih => apply ih.congr rfl rfl rfl rfl (by simp)
  | cyclicCall _ _ _ => apply Balanced.report
  | call _ _ _ _ ih => apply ih.congr rfl rfl rfl rfl (by simp)
  | creation _ _ _ ih => apply ih.congr rfl rfl rfl rfl (by simp)
  | creationWithSetters _ _ _ _ ih₁ ih₂ =>
      apply ih₁.trans (ih₂.congr (by simp) (by simp) rfl rfl rfl) (by simp)
  | noParameters => apply Balanced.refl
  | parameter _ _ ih₁ ih₂ => apply ih₁.trans ih₂ (Expr.nulls_cons _ _)
  | noSetters => apply Balanced.refl
  | setter _ _ ih₁ ih₂ =>
      apply ih₁.trans ih₂
      rw [Expr.nulls_cons, Expr.nulls_callMember]

/-- Resolution reports failed look-ups only, at the position of its site. -/
theorem Resolves.reportsAt (h : inj.Resolves site task p es p')
    (absent : ∀ problem, task = .dependency (.absent problem) → problem.stage = .resolution) :
  p.ReportsAt site.location p'
  := by
  induction h with
  | value _ => apply ReportsAt.refl
  | absent => apply ReportsAt.report (absent _ rfl)
  | cyclicObject _ _ => apply ReportsAt.report rfl
  | held _ _ _ _ => apply (ReportsAt.refl _ _).congr rfl (by simp)
  | heldLazily _ _ _ _ _ ih => apply (ih (by simp)).congr (by simp) rfl
  | prototype _ _ _ _ _ ih => apply (ih (by simp)).congr (by simp) rfl
  | singleton _ _ _ _ _ ih => apply (ih (by simp)).congr (by simp [takeSingleton]) rfl
  | eagerSingleton _ _ _ _ _ ih => apply (ih (by simp)).congr (by simp [takeSingleton]) rfl
  | provided _ ih => apply ih (by simp)
  | providerFunction _ ih => apply (ih (by simp)).congr rfl rfl
  | cyclicCall _ _ _ => apply ReportsAt.report rfl
  | call _ _ _ _ ih => apply ih (by simp)
  | creation _ _ _ ih => apply ih (by simp)
  | creationWithSetters _ _ _ _ ih₁ ih₂ =>
      apply (ih₁ (by simp)).trans
      apply (ih₂ (by simp)).congr (by simp) rfl
  | noParameters => apply ReportsAt.refl
  | parameter _ _ ih₁ ih₂ =>
      have first := ih₁ fun problem eq => stage_of_parameter (Task.dependency.inj eq)
      apply first.trans (ih₂ (by simp))
  | noSetters => apply ReportsAt.refl
  | setter _ _ ih₁ ih₂ => apply (ih₁ (by simp)).trans (ih₂ (by simp))

/-! ### Whole runs -/

/-- What an errand reports is at the position of the errand. -/
theorem reportsAt_of_errand {errand : Errand}
    (h : inj.Resolves ⟨errand.location, []⟩ (.dependency (errand.dependency inj)) p es q) :
  p.ReportsAt errand.location q
  := by
  apply h.reportsAt
  intro problem eq
  cases errand with
  | construct location c => cases Task.dependency.inj eq
  | answer request => apply stage_of_requested (Task.dependency.inj eq)

/-- The reports of errands follow each other as the errands do. -/
theorem Serves.exists_parts (h : inj.Serves errands p q) :
  ∃ parts, q.reports.toList = p.reports.toList ++ parts.flatten
    ∧ List.Forall₂ (fun errand part => ∀ d ∈ part, d.location = Errand.location errand) errands
      parts
  := by
  induction h with
  | nil =>
      use []
      simp
  | cons first _ ih =>
      obtain ⟨part, eq₁, located⟩ := reportsAt_of_errand first
      obtain ⟨parts, eq₂, forall₂⟩ := ih
      use part :: parts
      constructor
      · rw [eq₂, Errand.reports_finish, eq₁, List.flatten_cons, List.append_assoc]
      · exact .cons (fun d hd => (located d hd).1) forall₂

/-- Errands report failed look-ups only. -/
theorem Serves.stage_eq (h : inj.Serves errands p q)
    (before : ∀ d ∈ p.reports.toList, d.problem.stage = .resolution) :
  ∀ d ∈ q.reports.toList, d.problem.stage = .resolution
  := by
  induction h with
  | nil => exact before
  | cons first _ ih =>
      apply ih
      obtain ⟨part, eq, located⟩ := reportsAt_of_errand first
      intro d hd
      rw [Errand.reports_finish, eq] at hd
      obtain hd | hd := List.mem_append.mp hd
      · apply before d hd
      · apply (located d hd).2

/-- Errands report as many failures as they leave `null`s. The value of an eager object is no more
than a name, so nothing is lost when it is not used. -/
theorem Serves.balanced (values : inj.NullFree) (h : inj.Serves errands p q) (valid : p.Valid inj)
    (sound : ∀ errand ∈ errands, errand.Sound inj) :
  p.Balanced [] q
  := by
  induction h with
  | nil => apply Balanced.refl
  | @cons errand errands _ _ _ _ first _ ih =>
      have rest := ih (Errand.valid_finish (first.valid valid)) fun errand member =>
        sound errand (List.mem_cons_of_mem _ member)
      apply Balanced.trans _ rest rfl
      cases errand with
      | construct location c =>
          obtain ⟨name, eq⟩ := first.name_of_eager valid
            (sound _ List.mem_cons_self location c rfl).2
          apply (first.balanced values).congr rfl rfl rfl rfl
          rw [eq, Expr.nulls_name, Expr.nulls_nil]
      | answer request => apply (first.balanced values).emit (.answer request _) rfl rfl

end Injector

namespace Catalog

open Injector

/-- Where cycles are looked for and no bound value has a `null` inside, a plan has as many `null`s
as failed look-ups are reported for it. These are reported for the eager objects and the requests
one after the other, and whatever has been resolved before, each of them at the position of the
eager binding or of the request that is served. -/
theorem failures_eq_nulls [Dialect] (catalog : Catalog) (options : Options) (entry : EntryPoint)
    (cycles : options.detectCycles = true) (values : (catalog.injector options entry).NullFree) :
  let inj := catalog.injector options entry
  let failures := (catalog.planEntry options entry).reports.filter (·.problem.stage = .resolution)
  failures.length = (catalog.planEntry options entry).value.nodes.countP Expr.isNull
    ∧ (∃ parts, failures = parts.flatten
      ∧ List.Forall₂ (fun errand part => ∀ d ∈ part, d.location = Errand.location errand)
        (inj.constructions ++ entry.requests.map .answer) parts)
    ∧ (∀ p : Progress, ∀ x ∈ inj.eagerBindings,
      p.ReportsAt x.1.binding.location
        ((inj.resolveAt x.1.binding.location (.object x.2)).run p).2)
    ∧ ∀ (p : Progress) request,
      p.ReportsAt request.location ((inj.answer request).run p).2
  := by
  intro inj failures
  have looks : inj.options.detectCycles = true := cycles
  have serves : inj.Serves inj.errands {} (catalog.progress options entry) :=
    serves_errands catalog entry cycles
  have failures_eq : failures = (catalog.progress options entry).reports.toList := by
    simp only [failures, failures_planEntry]
    apply List.filter_eq_self.mpr
    simpa using serves.stage_eq (by simp)
  refine ⟨?_, ?_, ?_, ?_⟩
  · have balanced := serves.balanced values (.start _) fun _ => sound_of_mem_errands
    have none : ({} : Progress).nulls = 0 := rfl
    have same : (catalog.planEntry options entry).value.nodes.countP Expr.isNull
        = (catalog.progress options entry).nulls := rfl
    rw [failures_eq, Array.length_toList, same]
    simpa [Progress.Balanced, none] using balanced
  · obtain ⟨parts, reports, located⟩ := serves.exists_parts
    use parts
    rw [failures_eq, reports]
    use rfl, located
  · rintro p ⟨b, c⟩ member
    have offers : inj.Offers (.object c) := (of_mem_eagerBindings member).1
    have h := resolves_resolveAt looks b.binding.location offers p
    apply @reportsAt_of_errand inj _ _ _ (.construct b.binding.location c) h
  · intro p request
    have h := resolves_resolve looks request p
    apply (@reportsAt_of_errand inj _ _ _ (.answer request) h).congr rfl rfl

/-- A desk with a lamp that nobody makes, and a chair that needs the desk twice. -/
def office : Catalog where
  classes :=
    [ { name := "Desk", params := ["lamp"] },
      { name := "Chair", params := ["desk", "deskProvider"] } ]
  modules :=
    [ { name := "Office"
        bindings :=
          [ { key := "desk", source := .type "Desk" },
            { key := "colour", source := .value (.str "grey") } ] } ]

/-- A chair is asked for. -/
def furnishing : EntryPoint where
  name := "furnishing"
  modules := ["Office"]
  requests := [⟨.ofClass "Chair", { file := "office", line := 3 }⟩]

/-- All that is missing for the chair is reported where the chair is asked for. -/
theorem failures_eq_nulls_office :
  ({} : Options).detectCycles = true ∧ (office.injector {} furnishing).NullFree
    ∧ ((office.planEntry {} furnishing).reports.filter
        (·.problem.stage = .resolution)).length
      = (office.planEntry {} furnishing).value.nodes.countP Expr.isNull
    ∧ ∀ d ∈ (office.planEntry {} furnishing).reports.filter (·.problem.stage = .resolution),
      d.location = { file := "office", line := 3 }
  := by
  have values : (office.injector {} furnishing).NullFree := by
    have bindings : ∀ b ∈ (office.injector {} furnishing).bindings,
        b.binding.source = .type "Desk" ∨ b.binding.source = .value (.str "grey") := by
      decide +kernel
    intro b member e source
    obtain eq | eq := bindings b member
    · cases eq.symm.trans source
    · obtain rfl := Source.value.inj (eq.symm.trans source)
      rfl
  obtain ⟨number, ⟨parts, failures, located⟩, -⟩ :=
    failures_eq_nulls office {} furnishing rfl values
  refine ⟨rfl, values, number, ?_⟩
  have none : (office.injector {} furnishing).constructions = [] := by
    have eager : (office.injector {} furnishing).eagerBindings = [] := by
      rw [injector, ofEntry_eq]
      decide +kernel
    rw [constructions, eager, List.map_nil]
  rw [none] at located
  obtain _ | ⟨located, ⟨⟩⟩ := located
  intro d hd
  rw [failures] at hd
  apply located d
  simpa using hd

end Catalog

end Wiring
