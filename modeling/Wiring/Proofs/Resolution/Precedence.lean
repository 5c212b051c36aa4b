import Wiring.Proofs.Resolution.Origin
import Mathlib.Data.Nat.Find

/-!
# The order of construction

Eager objects are constructed dependencies first, and else in the order of their bindings
(`eager_dependencies_first`).

The statement of an eager object is emitted when all that the object needs has been resolved. What
holds a variable is not looked into again, which cuts nothing off: unless it is under construction
itself, all eager objects that it needs have been constructed (`Progress.Laid`). It is under
construction only if it needs what is resolved, so where nothing needs itself that does not happen.
-/

namespace Wiring

open Relation Progress

/-! ### The invariant -/

namespace Progress

/-- The eager objects that the step needs have been constructed, but for those under way. -/
def Supplied (inj : Injector) (under : List Step) (p : Progress) (step : Step) : Prop :=
  ∀ className, inj.IsEager className → ReflTransGen inj.Edge step (.ofClass className) →
    .ofClass className ∈ under ∨ className ∈ p.constructionOrder

/-- Each eager object has been constructed after the eager objects that it needs. -/
def Ordered (inj : Injector) (p : Progress) : Prop :=
  ∀ x ∈ p.constructionOrder, ∀ y, inj.IsEager y →
    TransGen inj.Edge (.ofClass x) (.ofClass y) → [y, x].Sublist p.constructionOrder

/-- The eager objects have been constructed dependencies first, and those that a class with a
variable needs have been constructed, unless the class is in progress. -/
structure Laid (inj : Injector) (inProgress : List Step) (p : Progress) : Prop where
  ordered : p.Ordered inj
  supplied : ∀ className, p.Holds className → .ofClass className ∉ inProgress →
    p.Supplied inj [] (.ofClass className)

variable {inj : Injector} {p q : Progress} {step : Step} {under trail : List Step} {c : ManagedClass}

theorem Supplied.of_grows (h : p.Supplied inj under step) (grows : p.Grows q) :
  q.Supplied inj under step
  := by
  intro className eager path
  apply (h className eager path).imp id
  apply grows.constructionOrder.subset

/-- A step needs itself and what it needs directly. -/
theorem Supplied.of_edges (h : ∀ next, inj.Edge step next → p.Supplied inj [] next) :
  p.Supplied inj [step] step
  := by
  intro className eager path
  obtain same | ⟨next, edge, rest⟩ := path.cases_head
  · left
    rw [same]
    apply List.mem_singleton_self
  · right
    apply (h next edge className eager rest).resolve_left List.not_mem_nil

/-- What is no eager object needs no statement of its own. -/
theorem Supplied.of_not_eager {under : Step} (h : p.Supplied inj [under] step)
    (other : ∀ className, inj.IsEager className → .ofClass className ≠ under) :
  p.Supplied inj [] step
  := by
  intro className eager path
  obtain same | done := h className eager path
  · cases other className eager (List.mem_singleton.mp same)
  · right
    exact done

/-- The statement of an eager object supplies it. -/
theorem Supplied.emit {className target : String} {e : Expr}
    (h : p.Supplied inj [.ofClass className] step) :
  (p.emit (.construct className target e)).Supplied inj [] step
  := by
  intro other eager path
  right
  rw [constructionOrder_emit_construct, List.mem_append]
  obtain under | done := h other eager path
  · obtain rfl := Step.ofClass.inj (List.mem_singleton.mp under)
    right
    apply List.mem_singleton_self
  · left
    exact done

namespace Laid

theorem start (inj : Injector) :
  ({} : Progress).Laid inj []
  := by
  constructor
  · rintro x ⟨⟩
  · rintro className ⟨s, ⟨⟩⟩

/-- Only the classes that hold variables and the statements matter. -/
theorem congr (h : p.Laid inj trail) (statements : q.statements = p.statements)
    (holds : ∀ className, q.Holds className → p.Holds className) :
  q.Laid inj trail
  := by
  have order := constructionOrder_eq_of_statements_eq statements
  constructor
  · unfold Ordered
    rw [order]
    exact h.ordered
  · intro className held outside
    unfold Supplied
    rw [order]
    apply h.supplied className (holds className held) outside

theorem addSubclass (h : p.Laid inj trail) (c : ManagedClass) :
  (p.addSubclass inj c).Laid inj trail
  := by
  apply h.congr (by simp)
  simp [Holds]

theorem enter (h : p.Laid inj trail) :
  p.Laid inj (step :: trail)
  where
  ordered := h.ordered
  supplied className held outside := by
    apply h.supplied className held
    intro inside
    apply outside (List.mem_cons_of_mem _ inside)

/-- A step that has been supplied is no longer in progress. -/
theorem leave (h : p.Laid inj (step :: trail)) (supplied : p.Supplied inj [] step) :
  p.Laid inj trail
  where
  ordered := h.ordered
  supplied className held outside := by
    by_cases eq : .ofClass className = step
    · rw [eq]
      exact supplied
    · apply h.supplied className held
      intro inside
      obtain eq' | inside := List.mem_cons.mp inside
      · cases eq eq'
      · cases outside inside

/-- A class takes a variable when its construction is in progress. -/
theorem takeSingleton (h : p.Laid inj trail) (options : Options) (className : String)
    (lazy : Bool) :
  (p.takeSingleton options className lazy).Laid inj (.ofClass className :: trail)
  where
  ordered := h.ordered
  supplied other held outside := by
    have ne : other ≠ className := by
      rintro rfl
      apply outside List.mem_cons_self
    rw [Holds, singleton?_takeSingleton_of_ne ne] at held
    apply h.enter.supplied other held outside

/-- The statement of an eager object is emitted after those of the objects that it needs. -/
theorem emit {className target : String} {e : Expr} (h : p.Laid inj (.ofClass className :: trail))
    (supplied : p.Supplied inj [.ofClass className] (.ofClass className))
    (acyclic : ¬ TransGen inj.Edge (.ofClass className) (.ofClass className)) :
  (p.emit (.construct className target e)).Laid inj trail
  := by
  apply leave _ supplied.emit
  constructor
  · intro x member y eager path
    rw [constructionOrder_emit_construct] at member ⊢
    obtain member | last := List.mem_append.mp member
    · apply (h.ordered x member y eager path).trans (List.sublist_append_left _ _)
    · obtain rfl := List.mem_singleton.mp last
      obtain same | before := supplied y eager path.to_reflTransGen
      · rw [List.mem_singleton.mp same] at path
        cases acyclic path
      · apply (List.singleton_sublist.mpr before).append (List.Sublist.refl [x])
  · intro other held outside
    apply (h.supplied other held outside).of_grows (grows_emit _ _)

end Laid

end Progress

namespace Injector

variable {inj : Injector} {site : Site} {task : Task} {p p' q r : Progress} {es : List Expr}
  {step next : Step} {trail : Trail} {c : ManagedClass}

/-! ### Derivations -/

/-- The steps in progress lead to what the task starts with, which needs nothing that needs
itself. -/
def Advances (inj : Injector) (trail : Trail) (task : Task) : Prop :=
  ∀ step, task.Starts inj step → Trail.Walks inj (step :: trail) ∧ inj.Clean step

theorem Clean.of_edge (h : inj.Clean step) (edge : inj.Edge step next) :
  inj.Clean next
  := by
  intro s path
  apply h s (.head edge path)

/-- A step that needs nothing that needs itself is not in progress. -/
theorem not_closesCycle_of_clean (walks : Trail.Walks inj (step :: site.trail))
    (clean : inj.Clean step) :
  inj.closesCycle site step ≠ true
  := by
  intro closes
  have contains : site.trail.contains step = true := (Bool.and_eq_true_iff.mp closes).2
  have inside : step ∈ site.trail := by
    simpa [Trail.contains, (walks.reachable step List.mem_cons_self).ne_request] using contains
  apply clean step .refl (walks.transGen step inside)

/-- The task goes on with what the step needs. -/
theorem Advances.enter {later : Task} (walks : Trail.Walks inj (step :: trail))
    (clean : inj.Clean step) (edges : ∀ next, later.Starts inj next → inj.Edge step next) :
  inj.Advances (step :: trail) later
  := by
  intro next starts
  use walks.extend (edges next starts)
  apply clean.of_edge (edges next starts)

/-- A class that is not eager is no eager class. -/
theorem ne_of_isEager (declared : inj.class? c.name = some c) (scope : c.scope ≠ .eagerSingleton) :
  ∀ className, inj.IsEager className → Step.ofClass className ≠ .ofClass c.name
  := by
  rintro className ⟨d, declared', scope'⟩ eq
  obtain rfl := Step.ofClass.inj eq
  obtain rfl := Option.some.inj (declared.symm.trans declared')
  apply scope scope'

/-- Resolution constructs eager objects dependencies first, and all that the task needs. -/
theorem Resolves.lays (cycles : inj.options.detectCycles = true)
    (h : inj.Resolves site task p es p') (valid : p.Valid inj)
    (advances : inj.Advances site.trail task) (laid : p.Laid inj (task.entered ++ site.trail)) :
  p'.Laid inj (task.entered ++ site.trail)
    ∧ ∀ step, task.Starts inj step → p'.Supplied inj task.entered step
  := by
  induction h with
  | value _ =>
      use laid
      rintro _ ⟨⟩
  | absent =>
      use laid.congr rfl fun _ => id
      rintro _ ⟨⟩
  | cyclicObject _ closes =>
      obtain ⟨walks, clean⟩ := advances _ rfl
      cases not_closesCycle_of_clean walks clean closes
  | @held _ c p s _ fresh held _ =>
      use laid.addSubclass c
      rintro _ rfl
      apply Supplied.of_grows _ (grows_addSubclass inj c p)
      apply laid.supplied c.name ⟨s, held⟩ (not_mem_of_fresh cycles fresh)
  | @heldLazily _ c p s e p' declared _ held lazy _ ih =>
      obtain ⟨laid, supplied⟩ := ih (valid.addSubclass c) advances (laid.addSubclass c).enter
      obtain ⟨d, declared', heldBy⟩ := valid.heldBy held
      obtain rfl := Option.some.inj (declared.symm.trans declared')
      have scope : c.scope ≠ .eagerSingleton := by simp [heldBy.lazy lazy]
      have supplied := (supplied _ rfl).of_not_eager (ne_of_isEager declared scope)
      constructor
      · apply (laid.leave supplied).congr (statements_setLazy _ _ _)
        simp [Holds, singleton?_setLazy]
      · rintro _ rfl
        apply supplied.of_grows (grows_setLazy _ _ _)
  | @prototype _ c _ _ _ declared _ _ scope _ ih =>
      obtain ⟨laid, supplied⟩ := ih (valid.addSubclass c) advances (laid.addSubclass c).enter
      have supplied := (supplied _ rfl).of_not_eager (ne_of_isEager declared (by simp [scope]))
      use laid.leave supplied
      rintro _ rfl
      exact supplied
  | @singleton _ c _ _ _ declared _ unheld scope _ ih =>
      obtain ⟨laid, supplied⟩ := ih (valid.takeShared declared unheld scope _) advances
        ((laid.addSubclass c).takeSingleton _ _ _)
      have supplied := (supplied _ rfl).of_not_eager (ne_of_isEager declared (by simp [scope]))
      use laid.leave supplied
      rintro _ rfl
      exact supplied
  | @eagerSingleton _ c _ _ _ declared _ unheld scope _ ih =>
      obtain ⟨laid, supplied⟩ := ih (valid.takeEager declared unheld scope) advances
        ((laid.addSubclass c).takeSingleton _ _ _)
      have supplied := supplied _ rfl
      use laid.emit supplied ((advances _ rfl).2 _ .refl)
      rintro _ rfl
      exact supplied.emit
  | provided _ ih => apply ih valid advances laid
  | providerFunction _ ih =>
      obtain ⟨laid, supplied⟩ := ih valid.defer advances (laid.congr rfl fun _ => id)
      use laid.congr rfl fun _ => id
      intro step starts
      apply (supplied step starts).of_grows (grows_resume _)
  | cyclicCall _ _ closes =>
      obtain ⟨walks, clean⟩ := advances _ rfl
      cases not_closesCycle_of_clean walks clean closes
  | @call _ b _ _ _ p' bound source _ _ ih =>
      obtain ⟨walks, clean⟩ := advances _ rfl
      obtain ⟨laid, supplied⟩ := ih valid
        (.enter walks clean fun _ => edge_of_provider bound source) laid.enter
      have supplied : p'.Supplied inj [] (.ofProvider b.binding.key) := by
        have but : p'.Supplied inj [.ofProvider b.binding.key] (.ofProvider b.binding.key) := by
          apply Supplied.of_edges
          intro next edge
          apply supplied next (starts_of_edge_ofProvider bound source edge)
        apply but.of_not_eager
        simp
      use laid.leave supplied
      rintro _ rfl
      exact supplied
  | @creation _ _ target _ _ _ declared plain _ ih =>
      obtain ⟨walks, clean⟩ := advances _ rfl
      obtain ⟨laid, supplied⟩ := ih valid
        (.enter walks clean fun _ => edge_of_parameters declared) laid
      use laid
      rintro _ rfl
      apply Supplied.of_edges
      intro next edge
      obtain starts | starts := starts_of_edge_ofClass declared "" edge
      · apply supplied next starts
      · rw [plain] at starts
        obtain ⟨setter, ⟨⟩, -⟩ := starts
  | @creationWithSetters _ _ target _ _ _ _ _ declared _ parameters setters ih₁ ih₂ =>
      obtain ⟨walks, clean⟩ := advances _ rfl
      obtain ⟨laid, supplied₁⟩ := ih₁ valid
        (.enter walks clean fun _ => edge_of_parameters declared) laid
      obtain ⟨laid, supplied₂⟩ := ih₂ ((parameters.valid valid).hold _)
        (.enter walks clean fun _ => edge_of_setters declared)
        (laid.congr (by simp) (by simp [Holds]))
      use laid
      rintro _ rfl
      apply Supplied.of_edges
      intro next edge
      obtain starts | starts := starts_of_edge_ofClass declared _ edge
      · apply (supplied₁ next starts).of_grows ((grows_hold _ _ _).trans setters.grows)
      · apply supplied₂ next starts
  | noParameters =>
      use laid
      rintro _ ⟨_, ⟨⟩, -⟩
  | parameter first rest ih₁ ih₂ =>
      obtain ⟨advances₁, advances₂⟩ := forall_starts_parameters_cons.mp advances
      obtain ⟨laid, supplied₁⟩ := ih₁ valid advances₁ laid
      obtain ⟨laid, supplied₂⟩ := ih₂ (first.valid valid) advances₂ laid
      use laid
      intro step starts
      obtain starts | starts := starts_parameters_cons.mp starts
      · apply (supplied₁ step starts).of_grows rest.grows
      · apply supplied₂ step starts
  | noSetters =>
      use laid
      rintro _ ⟨_, ⟨⟩, -⟩
  | setter first rest ih₁ ih₂ =>
      obtain ⟨advances₁, advances₂⟩ := forall_starts_setters_cons.mp advances
      obtain ⟨laid, supplied₁⟩ := ih₁ valid advances₁ laid
      obtain ⟨laid, supplied₂⟩ := ih₂ (first.valid valid) advances₂ laid
      use laid
      intro step starts
      obtain starts | starts := starts_setters_cons.mp starts
      · apply (supplied₁ step starts).of_grows rest.grows
      · apply supplied₂ step starts

/-! ### Whole runs -/

variable {errands : List Errand}

/-- Nothing that an eager object needs needs itself. -/
def EagerlyAcyclic (inj : Injector) : Prop :=
  ∀ className, inj.IsEager className → inj.Clean (.ofClass className)

/-- The constructions of eager objects construct all that these need, dependencies first. -/
theorem Serves.lays (cycles : inj.options.detectCycles = true) (acyclic : inj.EagerlyAcyclic)
    (h : inj.Serves errands p q) (valid : p.Valid inj)
    (eager : ∀ errand ∈ errands, errand.Eager inj) (laid : p.Laid inj []) :
  q.Laid inj [] ∧ ∀ errand ∈ errands, ∀ step, inj.Needs errand step → q.Supplied inj [] step
  := by
  induction h with
  | nil =>
      use laid
      simp
  | @cons errand errands p e p' q first rest ih =>
      have valid' := first.valid valid
      obtain ⟨location, c, rfl, declared, scope⟩ := eager errand List.mem_cons_self
      have advances : inj.Advances [] (.dependency (.object c)) := by
        rintro _ rfl
        use Trail.Walks.start (.eager declared scope)
        apply acyclic c.name ⟨c, declared, scope⟩
      obtain ⟨laid, supplied⟩ := first.lays cycles valid advances laid
      obtain ⟨laid, later⟩ := ih valid' (fun errand h => eager errand (List.mem_cons_of_mem _ h))
        laid
      use laid
      intro errand member step needs
      obtain rfl | member := List.mem_cons.mp member
      · apply (supplied step (starts_dependency_iff.mpr needs)).of_grows rest.grows
      · apply later errand member step needs

/-- Whatever a class or a provider needs has a lower number. -/
def descends (inj : Injector) (rank : Step → Nat) : Bool :=
  inj.edgesPass fun step next => rank next < rank step

section

variable {rank : Step → Nat} (h : inj.descends rank = true)

include h

theorem lt_of_edge (edge : inj.Edge step next) :
  rank next < rank step
  := by
  simpa using test_of_edge h edge

theorem le_of_needs (path : ReflTransGen inj.Edge step next) :
  rank next ≤ rank step
  := by
  induction path with
  | refl => apply Nat.le_refl
  | tail _ edge ih =>
      apply Nat.le_of_lt
      apply Nat.lt_of_lt_of_le (lt_of_edge h edge) ih

/-- Where numbers descend, nothing needs itself. -/
theorem clean_of_descends (step : Step) :
  inj.Clean step
  := by
  intro s _ cycle
  obtain ⟨next, edge, back⟩ := TransGen.head'_iff.mp cycle
  apply Nat.lt_irrefl (rank s)
  apply Nat.lt_of_le_of_lt (le_of_needs h back) (lt_of_edge h edge)

end

/-- Only what the errands need is constructed by statements. -/
theorem Serves.needs_of_mem_constructionOrder {className : String} (h : inj.Serves errands {} q)
    (member : className ∈ q.constructionOrder) :
  ∃ errand ∈ errands, ∃ step, inj.Needs errand step
    ∧ ReflTransGen inj.Edge step (.ofClass className)
  := by
  obtain ⟨s, member, constructed⟩ := List.mem_filterMap.mp member
  obtain before | origin := h.origin (.start _) member
  · cases before
  · cases origin with
    | answer _ _ _ => cases constructed
    | @construct _ c _ step _ _ _ _ _ started needed _ _ _ _ =>
        obtain ⟨errand, member, needs⟩ := started
        have same : c.name = className := Option.some.inj constructed
        rw [same] at needed
        use errand, member, step, needs

/-- The classes of the eager bindings, in the order of these. -/
def eagerClasses (inj : Injector) : List String :=
  inj.eagerBindings.map (·.2.name)

/-- The first of the eager bindings whose class needs the class is at the index. -/
structure RootAt (inj : Injector) (className : String) (i : Nat) : Prop where
  needs : ∃ root, inj.eagerClasses[i]? = some root
    ∧ ReflTransGen inj.Edge (.ofClass root) (.ofClass className)
  first : ∀ other ∈ inj.eagerClasses.take i,
    ¬ ReflTransGen inj.Edge (.ofClass other) (.ofClass className)

/-- What the class of an eager binding needs has a first one that needs it. -/
theorem exists_rootAt {root className : String} (member : root ∈ inj.eagerClasses)
    (path : ReflTransGen inj.Edge (.ofClass root) (.ofClass className)) :
  ∃ i, inj.RootAt className i
  := by
  classical
  obtain ⟨i, found⟩ := List.mem_iff_getElem?.mp member
  have some : ∃ i root, inj.eagerClasses[i]? = some root
      ∧ ReflTransGen inj.Edge (.ofClass root) (.ofClass className) := ⟨i, root, found, path⟩
  use Nat.find some
  constructor
  · apply Nat.find_spec some
  · intro other early path
    obtain ⟨j, lt, rfl⟩ := List.mem_take_iff_getElem.mp early
    apply Nat.find_min some (Nat.lt_of_lt_of_le lt (Nat.min_le_left _ _))
    use inj.eagerClasses[j], List.getElem?_eq_getElem (by omega), path

theorem RootAt.exists_mem_take {className : String} {i n : Nat} (h : inj.RootAt className i)
    (lt : i < n) :
  ∃ b c, (b, c) ∈ inj.eagerBindings.take n
    ∧ ReflTransGen inj.Edge (.ofClass c.name) (.ofClass className)
  := by
  obtain ⟨root, found, path⟩ := h.needs
  rw [eagerClasses, List.getElem?_map, Option.map_eq_some_iff] at found
  obtain ⟨⟨b, c⟩, found, rfl⟩ := found
  refine ⟨b, c, ?_, path⟩
  apply List.mem_iff_getElem?.mpr
  use i
  rw [List.getElem?_take_of_lt lt, found]

theorem RootAt.not_needs_of_mem_take {className : String} {i n : Nat} {b : OwnedBinding}
    (h : inj.RootAt className i) (le : n ≤ i) (member : (b, c) ∈ inj.eagerBindings.take n) :
  ¬ ReflTransGen inj.Edge (.ofClass c.name) (.ofClass className)
  := by
  apply h.first
  rw [eagerClasses, ← List.map_take]
  apply List.mem_map_of_mem (f := fun x => x.2.name) (List.take_subset_take_left _ le member)

/-- What some of the eager bindings need is constructed before what only others need. -/
theorem Serves.precedes (cycles : inj.options.detectCycles = true) (acyclic : inj.EagerlyAcyclic)
    (h : inj.Serves inj.constructions {} q) {x y : String} {i j : Nat} (eager : inj.IsEager x)
    (member : y ∈ q.constructionOrder) (root : inj.RootAt x i) (root' : inj.RootAt y j)
    (lt : i < j) :
  [x, y].Sublist q.constructionOrder
  := by
  have parts := List.take_append_drop (i + 1) inj.eagerBindings
  rw [constructions, ← parts, List.map_append] at h
  obtain ⟨p, before, after⟩ := h.split
  have done : x ∈ p.constructionOrder := by
    obtain ⟨b, c, early, path⟩ := root.exists_mem_take i.lt_succ_self
    obtain ⟨-, supplied⟩ := before.lays cycles acyclic (.start _)
      (fun _ h => eager_of_mem_constructions (List.map_subset _ (List.take_subset _ _) h))
      (.start _)
    apply (supplied _ (List.mem_map_of_mem early) _ rfl x eager path).resolve_left
    apply List.not_mem_nil
  have missing : y ∉ p.constructionOrder := by
    intro early
    obtain ⟨errand, member, step, needs, path⟩ := before.needs_of_mem_constructionOrder early
    obtain ⟨⟨b, c⟩, inside, rfl⟩ := List.mem_map.mp member
    obtain rfl := Option.some.inj needs
    apply root'.not_needs_of_mem_take lt inside path
  obtain ⟨late, eq⟩ := after.grows.constructionOrder
  rw [← eq, List.mem_append] at member
  rw [← eq]
  apply (List.singleton_sublist.mpr done).append
  apply List.singleton_sublist.mpr (member.resolve_left missing)

end Injector

namespace Catalog

open Injector

/-- Where cycles are looked for, and nothing that an eager object needs needs itself, each eager
object is constructed in one statement, after those of the eager objects that it needs. Otherwise
they are constructed in the order of the bindings that they are first needed for. -/
theorem eager_dependencies_first [Dialect] (catalog : Catalog) (options : Options)
    (entry : EntryPoint) (cycles : options.detectCycles = true)
    (acyclic : (catalog.injector options entry).EagerlyAcyclic) :
  let inj := catalog.injector options entry
  let order := (catalog.planEntry options entry).value.constructionOrder
  order.Nodup ∧ (∀ x, x ∈ order ↔ inj.IsEager x)
    ∧ (∀ x y, inj.IsEager x → inj.IsEager y →
      TransGen inj.Edge (.ofClass x) (.ofClass y) → [y, x].Sublist order)
    ∧ (∀ x, inj.IsEager x → ∃ i, inj.RootAt x i)
    ∧ ∀ x y i j, inj.IsEager x → inj.IsEager y → inj.RootAt x i → inj.RootAt y j → i < j →
      [x, y].Sublist order
  := by
  intro inj order
  have nodup : order.Nodup := nodup_constructionOrder catalog entry cycles
  have mem (x : String) : x ∈ order ↔ inj.IsEager x := mem_constructionOrder_iff catalog entry cycles
  have serves := serves_constructed catalog entry cycles
  have order_eq : order = _ := constructionOrder_planEntry catalog entry cycles
  refine ⟨nodup, mem, ?_, ?_, ?_⟩
  · intro x y eager eager' path
    obtain ⟨laid, -⟩ := serves.lays cycles acyclic (.start _) (fun _ => eager_of_mem_constructions)
      (.start _)
    have listed := (mem x).mpr eager
    rw [order_eq] at listed ⊢
    apply laid.ordered x listed y eager' path
  · rintro x ⟨c, declared, scope⟩
    obtain ⟨b, member⟩ := exists_mem_eagerBindings declared scope
    apply exists_rootAt (List.mem_map_of_mem member)
    rw [name_of_class? declared]
  · intro x y i j eager eager' root root' lt
    have listed := (mem y).mpr eager'
    rw [order_eq] at listed ⊢
    apply serves.precedes cycles acyclic eager listed root root' lt

/-- An orchestra that is there from the start: a conductor, who needs a score, the score, and a
piano. -/
def orchestra : Catalog where
  classes :=
    [ { name := "Conductor", params := ["score"] },
      { name := "Score" },
      { name := "Piano" } ]
  modules :=
    [ { name := "Orchestra"
        bindings :=
          [ { key := "conductor", source := .type "Conductor", scope := some .eagerSingleton },
            { key := "piano", source := .type "Piano", scope := some .eagerSingleton },
            { key := "score", source := .type "Score", scope := some .eagerSingleton } ] } ]

def rehearsalRoom : EntryPoint where
  name := "rehearsalRoom"
  modules := ["Orchestra"]
  requests := []

/-- The score is constructed before the conductor, who needs it, and so it is constructed before the
piano, which is bound before the score. -/
theorem eager_dependencies_first_orchestra :
  ({} : Options).detectCycles = true
    ∧ (orchestra.injector {} rehearsalRoom).EagerlyAcyclic
    ∧ ["Score", "Conductor"].Sublist
      (orchestra.planEntry {} rehearsalRoom).value.constructionOrder
    ∧ ["Score", "Piano"].Sublist (orchestra.planEntry {} rehearsalRoom).value.constructionOrder
  := by
  let rank (step : Step) : Nat :=
    if step = .ofClass "Piano" then 2 else if step = .ofClass "Conductor" then 1 else 0
  have descends : (orchestra.injector {} rehearsalRoom).descends rank = true := by
    rw [injector, ofEntry_eq]
    decide +kernel
  have acyclic : (orchestra.injector {} rehearsalRoom).EagerlyAcyclic :=
    fun className _ => clean_of_descends descends (.ofClass className)
  have eager : ∀ n ∈ ["Conductor", "Piano", "Score"],
      (orchestra.injector {} rehearsalRoom).IsEager n := by
    have scopes : ∀ n ∈ ["Conductor", "Piano", "Score"],
        ((orchestra.injector {} rehearsalRoom).class? n).map (·.scope)
          = some .eagerSingleton := by
      rw [injector, ofEntry_eq]
      decide +kernel
    intro n member
    obtain ⟨c, declared, scope⟩ := Option.map_eq_some_iff.mp (scopes n member)
    use c, declared, scope
  have classes : (orchestra.injector {} rehearsalRoom).eagerClasses
      = ["Conductor", "Piano", "Score"] := by
    rw [injector, ofEntry_eq]
    decide +kernel
  have edge : (orchestra.injector {} rehearsalRoom).Edge (.ofClass "Conductor")
      (.ofClass "Score") := by
    have score : (orchestra.injector {} rehearsalRoom).Binds "score" (.ofClass "Score") :=
      .toClass rfl rfl rfl
    apply Edge.constructor rfl List.mem_cons_self (.bound score)
  have root : (orchestra.injector {} rehearsalRoom).RootAt "Score" 0 := by
    constructor
    · rw [classes]
      use "Conductor", rfl, .single edge
    · simp
  have root' : (orchestra.injector {} rehearsalRoom).RootAt "Piano" 1 := by
    constructor
    · rw [classes]
      use "Piano", rfl
    · simp only [classes, List.take_succ_cons, List.take_zero, List.mem_singleton, forall_eq]
      intro path
      have below := le_of_needs descends path
      simp [rank] at below
  obtain ⟨-, -, dependencies, -, roots⟩ :=
    eager_dependencies_first orchestra {} rehearsalRoom rfl acyclic
  refine ⟨rfl, acyclic, ?_, ?_⟩
  · apply dependencies "Conductor" "Score" (eager _ (by decide)) (eager _ (by decide))
    apply TransGen.single edge
  · apply roots "Score" "Piano" 0 1 (eager _ (by decide)) (eager _ (by decide)) root root'
    apply Nat.zero_lt_one

end Catalog

end Wiring
