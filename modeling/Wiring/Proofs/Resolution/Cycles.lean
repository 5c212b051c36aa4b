import Wiring.Proofs.Planning
import Wiring.Proofs.Resolution.Graph

/-!
# Cycles

Where cycles are looked for, one is reported if and only if something that is needed needs itself,
and what is reported is a closed walk.

Every report is made at a site whose trail is a walk, so it tells a cycle (`Resolves.tells`).
Conversely, as long as no cycle is reported, a class that holds a variable and is not under
construction needs no cycle, since all that it needs has been resolved before (`Resolves.clean`).
So it does no harm that such a class is not looked into again.
-/

namespace Wiring

open Relation Progress

/-- A cycle that is reported is a closed walk of needed steps, written out. -/
def Diagnostic.Tells (inj : Injector) (d : Diagnostic) : Prop :=
  ∀ path, d.problem = .cyclicBinding path →
    ∃ walk, inj.ClosedWalk walk ∧ (∀ step ∈ walk, inj.Reachable step)
      ∧ path = joined " -> " (walk.map Step.text)

namespace Injector

variable {inj : Injector} {site : Site} {task : Task} {p p' : Progress} {es : List Expr}

/-! ### What is reported is a cycle -/

theorem forall_mem_report {P : Diagnostic → Prop} {problem : Problem} {location : Location}
    (before : ∀ d ∈ p.reports, P d) (last : P ⟨problem, location⟩) :
  ∀ d ∈ (p.report problem location).reports, P d
  := by
  intro d hd
  obtain hd | rfl := Array.mem_push.mp hd
  · apply before d hd
  · exact last

/-- What is absent is never a cycle. -/
theorem parameter_ne_cyclic {name path : String} :
  inj.parameter name ≠ .absent (.cyclicBinding path)
  := by
  unfold parameter providerOf Injector.bound objectOf
  repeat' split
  all_goals simp

theorem requested_ne_cyclic {wanted : Wanted} {path : String} :
  inj.requested wanted ≠ .absent (.cyclicBinding path)
  := by
  unfold requested Injector.bound objectOf
  repeat' split
  all_goals simp

/-- A report at the end of a walk tells a cycle. -/
theorem tells_cycle {step : Step} {location : Location}
    (walks : Trail.Walks inj (step :: site.trail))
    (closes : inj.closesCycle site step = true) :
  Diagnostic.Tells inj ⟨.cyclicBinding (site.trail.cycleText step), location⟩
  := by
  intro path h
  obtain rfl := Problem.cyclicBinding.inj h
  have contains : site.trail.contains step = true := (Bool.and_eq_true_iff.mp closes).2
  obtain ⟨walk, reachable⟩ := walks.closedWalk_cycle contains
  use site.trail.cycle step, walk, reachable
  rfl

/-- Where the steps in progress are a walk and the task goes on with it, every cycle that is
reported is one. -/
theorem Resolves.tells (h : inj.Resolves site task p es p')
    (walks : ∀ step, task.Starts inj step → Trail.Walks inj (step :: site.trail))
    (present : ∀ path, task ≠ .dependency (.absent (.cyclicBinding path)))
    (before : ∀ d ∈ p.reports, d.Tells inj) :
  ∀ d ∈ p'.reports, d.Tells inj
  := by
  induction h with
  | value _ => exact before
  | @absent _ problem _ =>
      apply forall_mem_report before
      intro path eq
      cases present path (by rw [← eq])
  | cyclicObject _ closes =>
      apply forall_mem_report before
      apply tells_cycle (walks _ rfl) closes
  | held _ _ _ _ => simpa using before
  | heldLazily _ _ _ _ _ ih => apply ih walks (by simp) (by simpa using before)
  | prototype _ _ _ _ _ ih => apply ih walks (by simp) (by simpa using before)
  | singleton _ _ _ _ _ ih =>
      apply ih walks (by simp)
      simpa [Progress.takeSingleton] using before
  | eagerSingleton _ _ _ _ _ ih =>
      apply ih walks (by simp)
      simpa [Progress.takeSingleton] using before
  | provided _ ih => apply ih walks (by simp) before
  | providerFunction _ ih => apply ih walks (by simp) before
  | cyclicCall _ _ closes =>
      apply forall_mem_report before
      apply tells_cycle (walks _ rfl) closes
  | call bound source _ _ ih =>
      apply ih _ (by simp) before
      intro step starts
      apply (walks _ rfl).extend (edge_of_provider bound source starts)
  | creation declared _ _ ih =>
      apply ih _ (by simp) before
      intro step starts
      apply (walks _ rfl).extend (edge_of_parameters declared starts)
  | creationWithSetters declared _ _ _ ih₁ ih₂ =>
      apply ih₂ _ (by simp)
      · rw [reports_hold]
        apply ih₁ _ (by simp) before
        intro step starts
        apply (walks _ rfl).extend (edge_of_parameters declared starts)
      · intro step starts
        apply (walks _ rfl).extend (edge_of_setters declared starts)
  | noParameters => exact before
  | parameter _ _ ih₁ ih₂ =>
      obtain ⟨walks₁, walks₂⟩ := forall_starts_parameters_cons.mp walks
      apply ih₂ walks₂ (by simp)
      apply ih₁ walks₁ _ before
      intro path eq
      apply parameter_ne_cyclic (Task.dependency.inj eq)
  | noSetters => exact before
  | setter _ _ ih₁ ih₂ =>
      obtain ⟨walks₁, walks₂⟩ := forall_starts_setters_cons.mp walks
      apply ih₂ walks₂ (by simp)
      apply ih₁ walks₁ (by simp) before

/-! ### Every cycle is reported -/

/-- Nothing that the step needs needs itself. -/
def Clean (inj : Injector) (step : Step) : Prop :=
  ∀ s, ReflTransGen inj.Edge step s → ¬ TransGen inj.Edge s s

/-- A step is clean if all that it needs directly is. -/
theorem clean_of_edges {step : Step} (h : ∀ s, inj.Edge step s → inj.Clean s) :
  inj.Clean step
  := by
  intro s path cycle
  obtain rfl | ⟨next, edge, rest⟩ := path.cases_head
  · -- a cycle through the step itself passes something that it needs
    obtain ⟨next, edge, back⟩ := TransGen.head'_iff.mp cycle
    apply h next edge _ back cycle
  · apply h next edge s rest cycle

end Injector

namespace Progress

/-- No cycle has been reported. -/
def Silent (p : Progress) : Prop :=
  ∀ d ∈ p.reports, ∀ path, d.problem ≠ .cyclicBinding path

/-- The classes that hold variables are clean, unless they are in progress. -/
def Explored (inj : Injector) (inProgress : List Step) (p : Progress) : Prop :=
  ∀ className s, p.singleton? className = some s → .ofClass className ∉ inProgress →
    inj.Clean (.ofClass className)

variable {inj : Injector} {p q : Progress} {step : Step} {trail : List Step}

theorem Silent.of_grows (h : q.Silent) (grows : p.Grows q) :
  p.Silent
  := by
  intro d hd
  apply h d
  apply Array.mem_def.mpr
  apply grows.reports.subset
  apply Array.mem_def.mp hd

theorem not_silent_report {path : String} {location : Location} :
  ¬ (p.report (.cyclicBinding path) location).Silent
  := by
  intro silent
  apply silent _ Array.mem_push_self path rfl

namespace Explored

/-- Only which classes hold variables matters. -/
theorem of_held (h : p.Explored inj trail)
    (held : ∀ className, p.singleton? className = none → q.singleton? className = none) :
  q.Explored inj trail
  := by
  intro className s hs
  cases was : p.singleton? className with
  | none => simp [held className was] at hs
  | some s => apply h className s was

theorem enter (h : p.Explored inj trail) :
  p.Explored inj (step :: trail)
  := by
  intro className s held outside
  apply h className s held
  intro inside
  apply outside (List.mem_cons_of_mem _ inside)

/-- A step that has been resolved and is clean is no longer in progress. -/
theorem leave (h : p.Explored inj (step :: trail)) (clean : inj.Clean step) :
  p.Explored inj trail
  := by
  intro className s held outside
  by_cases eq : .ofClass className = step
  · rw [eq]
    exact clean
  · apply h className s held
    intro inside
    obtain eq' | inside := List.mem_cons.mp inside
    · cases eq eq'
    · cases outside inside

/-- A class takes a variable when its construction is in progress. -/
theorem takeSingleton (h : p.Explored inj trail) (options : Options) (className : String)
    (lazy : Bool) :
  (p.takeSingleton options className lazy).Explored inj (.ofClass className :: trail)
  := by
  intro other s held outside
  have ne : other ≠ className := by
    rintro rfl
    apply outside List.mem_cons_self
  rw [singleton?_takeSingleton_of_ne ne] at held
  apply h.enter other s held outside

end Explored

end Progress

namespace Injector

variable {inj : Injector} {site : Site} {task : Task} {p p' : Progress} {es : List Expr}

/-- As long as no cycle is reported, whatever is resolved is clean, and so are the classes that
hold variables, unless they are in progress. -/
theorem Resolves.clean (cycles : inj.options.detectCycles = true)
    (h : inj.Resolves site task p es p') (silent : p'.Silent)
    (explored : p.Explored inj (task.entered ++ site.trail)) :
  p'.Explored inj (task.entered ++ site.trail) ∧ ∀ step, task.Starts inj step → inj.Clean step
  := by
  induction h with
  | value _ =>
      use explored
      rintro _ ⟨⟩
  | absent =>
      use explored
      rintro _ ⟨⟩
  | cyclicObject _ _ => cases not_silent_report silent
  | held _ fresh held _ =>
      constructor
      · apply explored.of_held
        simp
      · rintro _ rfl
        apply explored _ _ held (not_mem_of_fresh cycles fresh)
  | @heldLazily _ c _ _ _ _ _ _ _ _ _ ih =>
      obtain ⟨explored, clean⟩ := ih silent (explored.of_held (by simp)).enter
      have clean := clean _ rfl
      constructor
      · apply (explored.leave clean).of_held
        intro className unheld
        rw [singleton?_setLazy, unheld]
        rfl
      · rintro _ rfl
        exact clean
  | prototype _ _ _ _ _ ih =>
      obtain ⟨explored, clean⟩ := ih silent (explored.of_held (by simp)).enter
      use explored.leave (clean _ rfl), clean
  | singleton _ _ _ _ _ ih =>
      obtain ⟨explored, clean⟩ := ih silent ((explored.of_held (by simp)).takeSingleton _ _ _)
      use explored.leave (clean _ rfl), clean
  | eagerSingleton _ _ _ _ _ ih =>
      obtain ⟨explored, clean⟩ := ih silent ((explored.of_held (by simp)).takeSingleton _ _ _)
      use explored.leave (clean _ rfl), clean
  | provided _ ih => apply ih silent explored
  | providerFunction _ ih => apply ih silent explored
  | cyclicCall _ _ _ => cases not_silent_report silent
  | @call _ b _ _ _ _ bound source _ _ ih =>
      obtain ⟨explored, clean⟩ := ih silent explored.enter
      have clean : inj.Clean (.ofProvider b.binding.key) := by
        apply clean_of_edges
        intro step edge
        apply clean step (starts_of_edge_ofProvider bound source edge)
      use explored.leave clean
      rintro _ rfl
      exact clean
  | @creation _ _ target _ _ _ declared plain _ ih =>
      obtain ⟨explored, clean⟩ := ih silent explored
      use explored
      rintro _ rfl
      apply clean_of_edges
      intro step edge
      obtain starts | starts := starts_of_edge_ofClass declared "" edge
      · apply clean step starts
      · rw [plain] at starts
        obtain ⟨setter, ⟨⟩, -⟩ := starts
  | creationWithSetters declared _ _ setters ih₁ ih₂ =>
      have silent₁ := silent.of_grows ((grows_hold _ _ _).trans setters.grows)
      obtain ⟨explored, clean₁⟩ := ih₁ silent₁ explored
      obtain ⟨explored, clean₂⟩ := ih₂ silent (explored.of_held (by simp))
      use explored
      rintro _ rfl
      apply clean_of_edges
      intro step edge
      obtain starts | starts := starts_of_edge_ofClass declared _ edge
      · apply clean₁ step starts
      · apply clean₂ step starts
  | noParameters =>
      use explored
      rintro _ ⟨_, ⟨⟩, -⟩
  | parameter _ rest ih₁ ih₂ =>
      obtain ⟨explored, clean₁⟩ := ih₁ (silent.of_grows rest.grows) explored
      obtain ⟨explored, clean₂⟩ := ih₂ silent explored
      use explored
      intro step starts
      obtain starts | starts := starts_parameters_cons.mp starts
      · apply clean₁ step starts
      · apply clean₂ step starts
  | noSetters =>
      use explored
      rintro _ ⟨_, ⟨⟩, -⟩
  | setter _ rest ih₁ ih₂ =>
      obtain ⟨explored, clean₁⟩ := ih₁ (silent.of_grows rest.grows) explored
      obtain ⟨explored, clean₂⟩ := ih₂ silent explored
      use explored
      intro step starts
      obtain starts | starts := starts_setters_cons.mp starts
      · apply clean₁ step starts
      · apply clean₂ step starts

/-! ### Whole runs -/

variable {errands : List Errand} {q : Progress}

/-- What the errand resolves is on the graph. -/
def Needs (inj : Injector) (errand : Errand) (step : Step) : Prop :=
  (errand.dependency inj).step? = some step

/-- Errands that start at roots report cycles only. -/
theorem Serves.tells (h : inj.Serves errands p q)
    (roots : ∀ errand ∈ errands, ∀ step, inj.Needs errand step → inj.Root step)
    (before : ∀ d ∈ p.reports, d.Tells inj) :
  ∀ d ∈ q.reports, d.Tells inj
  := by
  induction h with
  | nil => exact before
  | @cons errand errands _ _ _ _ first _ ih =>
      apply ih (fun e he => roots e (List.mem_cons_of_mem _ he))
      rw [Errand.reports_finish]
      apply first.tells _ _ before
      · intro step starts
        apply Trail.Walks.start
        apply roots errand List.mem_cons_self step (starts_dependency_iff.mp starts)
      · intro path absent
        cases errand with
        | construct location c => cases absent
        | answer request => apply requested_ne_cyclic (Task.dependency.inj absent)

/-- Errands that report no cycle resolve what is clean only. -/
theorem Serves.clean (cycles : inj.options.detectCycles = true) (h : inj.Serves errands p q)
    (silent : q.Silent) (explored : p.Explored inj []) :
  ∀ errand ∈ errands, ∀ step, inj.Needs errand step → inj.Clean step
  := by
  induction h with
  | nil => simp
  | cons first rest ih =>
      have silent₁ := silent.of_grows ((Errand.grows_finish _ _ _).trans rest.grows)
      obtain ⟨explored₁, clean⟩ := first.clean cycles silent₁ explored
      intro errand member step needs
      obtain rfl | member := List.mem_cons.mp member
      · apply clean step (starts_dependency_iff.mpr needs)
      · apply ih silent _ errand member step needs
        apply explored₁.of_held
        simp

/-- What an entry point is served by starts at roots. -/
theorem root_of_needs {errand : Errand} {step : Step}
    (h : errand ∈ inj.constructions ++ inj.entry.requests.map .answer)
    (needs : inj.Needs errand step) :
  inj.Root step
  := by
  obtain h | h := List.mem_append.mp h
  · obtain ⟨⟨b, c⟩, member, rfl⟩ := List.mem_map.mp h
    obtain ⟨declared, scope⟩ := of_mem_eagerBindings member
    obtain rfl := Option.some.inj needs
    exact .eager declared scope
  · obtain ⟨request, member, rfl⟩ := List.mem_map.mp h
    apply root_of_requested member needs

/-- What a request of the entry point asks for is what its answer resolves. -/
theorem needs_of_binds {request : Request} {key : String} {step : Step}
    (wanted : request.wanted = .ofKey key) (binds : inj.Binds key step) :
  inj.Needs (.answer request) step
  := by
  unfold Needs
  simp only [Errand.dependency, wanted, requested]
  cases bound : inj.binding? key with
  | none => cases not_binds_of_unbound bound binds
  | some b => apply (bound_step?_eq_some bound).mpr binds

end Injector

namespace Catalog

open Injector

section

variable [Dialect] {catalog : Catalog} {options : Options} {entry : EntryPoint}

/-- Every root is resolved by one of the errands. -/
theorem exists_needs_of_root {step : Step} (h : (catalog.injector options entry).Root step) :
  ∃ errand ∈ (catalog.injector options entry).constructions
      ++ (catalog.injector options entry).entry.requests.map .answer,
    (catalog.injector options entry).Needs errand step
  := by
  cases h with
  | @eager className c declared scope =>
      obtain ⟨b, member⟩ := exists_mem_eagerBindings declared scope
      use .construct b.binding.location c
      constructor
      · apply List.mem_append_left
        apply List.mem_map.mpr
        use (b, c), member
      · rw [Needs, ← name_of_class? declared]
        rfl
  | @requestedClass request className c requested wanted declared =>
      use .answer request
      constructor
      · apply List.mem_append_right
        apply List.mem_map_of_mem requested
      · unfold Needs
        simp only [Errand.dependency, wanted, Injector.requested]
        apply objectOf_step?_eq_some.mpr
        use c, declared
  | @requestedKey request key _ requested wanted binds =>
      use .answer request
      constructor
      · apply List.mem_append_right
        apply List.mem_map_of_mem requested
      · apply needs_of_binds wanted binds

/-- Where cycles are looked for, planning an entry point reports one if and only if something that
the eager classes and the requests need needs itself, and every cycle that is reported is a closed
walk of the dependency graph, written out. -/
theorem reports_cycle_iff (catalog : Catalog) (options : Options) (entry : EntryPoint)
    (cycles : options.detectCycles = true) :
  let inj := catalog.injector options entry
  let reports := (catalog.planEntry options entry).reports
  ((∃ d ∈ reports, ∃ path, d.problem = .cyclicBinding path)
      ↔ ∃ step, inj.Reachable step ∧ TransGen inj.Edge step step)
    ∧ ∀ d ∈ reports, ∀ path, d.problem = .cyclicBinding path →
      ∃ walk, inj.ClosedWalk walk ∧ path = joined " -> " (walk.map Step.text)
  := by
  intro inj reports
  have serves := serves_errands catalog entry cycles
  have reports_eq : reports = _ := reports_planEntry catalog options entry
  generalize catalog.progress options entry = p at serves reports_eq
  have told : ∀ d ∈ reports, d.Tells inj := by
    intro d hd path problem
    rw [reports_eq] at hd
    obtain hd | hd := List.mem_append.mp hd
    · obtain ⟨className, method, problem'⟩ := problem_of_mem_reports_select hd
      cases problem.symm.trans problem'
    · have tells := serves.tells (fun errand member step needs => root_of_needs member needs)
        (by simp)
      apply tells d (Array.mem_def.mpr hd) path problem
  constructor
  · constructor
    · rintro ⟨d, hd, path, problem⟩
      obtain ⟨walk, closed, reachable, -⟩ := told d hd path problem
      obtain ⟨step, member, cycle⟩ := closed.cyclic
      use step, reachable step member, cycle
    · rintro ⟨step, ⟨root, isRoot, path⟩, cycle⟩
      by_contra none
      have silent : p.Silent := by
        intro d hd path problem
        apply none
        use d
        rw [reports_eq]
        use List.mem_append_right _ (Array.mem_def.mp hd), path, problem
      obtain ⟨errand, member, needs⟩ := exists_needs_of_root isRoot
      have explored : ({} : Progress).Explored inj [] := by
        rintro className s ⟨⟩
      have clean := serves.clean cycles silent explored errand member root needs
      apply clean step path cycle
  · intro d hd path problem
    obtain ⟨walk, closed, -, rendered⟩ := told d hd path problem
    use walk, closed, rendered

end

/-- Hens that need eggs that need hens. -/
def farm : Catalog where
  classes := [{ name := "Hen", params := ["egg"] }, { name := "Egg", params := ["hen"] }]
  modules :=
    [ { name := "Farm"
        bindings :=
          [ { key := "hen", source := .type "Hen" },
            { key := "egg", source := .type "Egg" } ] } ]

/-- A hen is asked for. -/
def breakfast : EntryPoint where
  name := "breakfast"
  modules := ["Farm"]
  requests := [⟨.ofKey "hen", {}⟩]

/-- The request for a hen reports the cycle of hens and eggs. -/
theorem reports_cycle_iff_farm :
  ({} : Options).detectCycles = true
    ∧ ∃ d ∈ (farm.planEntry {} breakfast).reports, ∃ path, d.problem = .cyclicBinding path
  := by
  use rfl
  apply (reports_cycle_iff farm {} breakfast rfl).1.mpr
  have hen : (farm.injector {} breakfast).Binds "hen" (.ofClass "Hen") := .toClass rfl rfl rfl
  have egg : (farm.injector {} breakfast).Binds "egg" (.ofClass "Egg") := .toClass rfl rfl rfl
  use .ofClass "Hen"
  constructor
  · use .ofClass "Hen"
    use .requestedKey List.mem_cons_self rfl hen
  · apply TransGen.head (.constructor rfl List.mem_cons_self (.bound egg))
    exact .single (.constructor rfl List.mem_cons_self (.bound hen))

end Catalog

end Wiring
