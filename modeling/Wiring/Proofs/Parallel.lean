import Wiring.Diagnostic.Journal
import Wiring.Proofs.Diagnostic.Reported
import Wiring.Proofs.Planning
import Mathlib.Algebra.GroupWithZero.Nat
import Mathlib.Data.List.Lex
import Mathlib.Data.List.Sort
import Mathlib.Data.String.Basic
import Mathlib.Logic.Relation

/-!
# Planning in parallel

The entry points of a catalog are planned one after the other (`Catalog.planAll`), or each of them
by a worker of its own. The workers share nothing but the journal, so what a worker plans and what
it reports is settled from the start, and all that is open is when each report arrives. A crew takes
one step at a time (`Catalog.CrewStep`): a worker is started, a worker makes its next report, or the
next worker in the order of the entry points is done and its plan is taken.

Whatever the steps are, the crew is done after as many of them, its plans are those that are made
one after the other, and its journal differs by the order only in which reports of different entry
points arrive (`planned_in_parallel`).
-/

namespace Wiring

open Relation

/-! ### Interleavings -/

/-- The lists have been merged, each in its own order. -/
inductive Interleaves {α : Type} : List (List α) → List α → Prop where
  | spent {lists} (empty : ∀ list ∈ lists, list = []) : Interleaves lists []
  | next {before list after x merged} (rest : Interleaves (before ++ list :: after) merged) :
    Interleaves (before ++ (x :: list) :: after) (x :: merged)

namespace Interleaves

variable {α : Type} {lists : List (List α)} {merged : List α}

theorem cons_nil (h : Interleaves lists merged) :
  Interleaves ([] :: lists) merged
  := by
  induction h with
  | spent empty =>
      apply spent
      simpa using empty
  | @next before list after x merged rest ih => exact @next _ ([] :: before) list after x merged ih

/-- Nothing is lost and nothing is added. -/
theorem perm (h : Interleaves lists merged) :
  merged.Perm lists.flatten
  := by
  induction h with
  | spent empty => rw [List.flatten_eq_nil_iff.mpr empty]
  | @next before list after x merged rest ih =>
      rw [List.flatten_append, List.flatten_cons, List.cons_append]
      apply (ih.cons x).trans
      rw [List.flatten_append, List.flatten_cons]
      apply List.perm_middle.symm

/-- Each list keeps its order. -/
theorem sublist (h : Interleaves lists merged) :
  ∀ list ∈ lists, list.Sublist merged
  := by
  induction h with
  | spent empty =>
      intro list member
      rw [empty list member]
  | @next before list after x merged rest ih =>
      intro other member
      obtain member | same | member : other ∈ before ∨ other = x :: list ∨ other ∈ after := by
        simpa using member
      · apply (ih other (List.mem_append_left _ member)).cons
      · rw [same]
        apply (ih list (List.mem_append_right _ List.mem_cons_self)).cons_cons
      · apply (ih other (List.mem_append_right _ (List.mem_cons_of_mem _ member))).cons

end Interleaves

/-! ### Journals in another order -/

/-- The bytes of a text. -/
def Text.bytes (text : String) : List Nat :=
  text.toByteArray.data.toList.map UInt8.toNat

theorem Text.bytes_injective :
  Function.Injective Text.bytes
  := by
  intro a b h
  apply String.toByteArray_inj.mp
  apply ByteArray.ext
  apply Array.toList_inj.mp
  apply List.map_injective_iff.mpr _ h
  intro x y
  exact UInt8.toNat_inj.mp

/-- What is sorted by a key that tells everything apart does not show its former order. -/
theorem mergeSort_eq_of_perm {α β : Type} [LinearOrder β] {key : α → β}
    (injective : Function.Injective key) {xs ys : List α} (h : xs.Perm ys) :
  (xs.mergeSort fun a b => key a ≤ key b) = ys.mergeSort fun a b => key a ≤ key b
  := by
  have sorted (list : List α) :
      (list.mergeSort fun a b => key a ≤ key b).Pairwise fun a b => key a ≤ key b := by
    have pairwise := @List.pairwise_mergeSort _ (fun a b => decide (key a ≤ key b))
      (by simpa using fun a b c => le_trans) (by simpa using fun a b => le_total _ _) list
    simpa using pairwise
  apply List.Perm.eq_of_pairwise _ (sorted xs) (sorted ys)
  · apply (List.mergeSort_perm _ _).trans
    apply h.trans (List.mergeSort_perm _ _).symm
  · intro a b _ _ le ge
    apply injective (le_antisymm le ge)

namespace Journal

/-- The texts of the diagnostics. -/
def texts (journal : Journal) : List String :=
  journal.entries.map (·.text)

/-- The texts of the diagnostics, in the order of their bytes. -/
def textsBytewise (journal : Journal) : List String :=
  journal.texts.mergeSort fun a b => Text.bytes a ≤ Text.bytes b

/-- The two journals show the same, but for the order of arrival. -/
structure Agrees (a b : Journal) : Prop where
  perm : a.entries.Perm b.entries
  length : a.entries.length = b.entries.length
  count : ∀ severity, a.countOf severity = b.countOf severity
  errors : a.hasErrors = b.hasErrors
  bytewise : a.textsBytewise = b.textsBytewise
  sorted : a.sorted.texts = b.sorted.texts

theorem texts_sorted (journal : Journal) :
  journal.sorted.texts = journal.texts.mergeSort fun a b => a ≤ b
  := by
  apply List.map_mergeSort
  intro a _ b _
  rfl

/-- What a journal shows is the same for every order of arrival. -/
theorem agrees_of_perm {a b : Journal} (h : a.entries.Perm b.entries) :
  a.Agrees b
  where
  perm := h
  length := h.length_eq
  count severity := h.countP_eq _
  errors := h.any_eq
  bytewise := mergeSort_eq_of_perm Text.bytes_injective (h.map _)
  sorted := by
    rw [texts_sorted, texts_sorted]
    apply mergeSort_eq_of_perm Function.injective_id (h.map _)

end Journal

/-! ### Crews -/

/-- Plans an entry point. -/
structure Worker where
  /-- The reports that are yet to be made. -/
  pending : List Diagnostic
  /-- The plan that is handed over when they have been made. -/
  plan : Plan

/-- The worker for an entry point, before the first report. -/
def Catalog.worker [Dialect] (catalog : Catalog) (options : Options) (entry : EntryPoint) : Worker :=
  let planned := catalog.planEntry options entry
  { pending := planned.reports, plan := planned.value }

/-- Workers that plan the entry points of a catalog and share a journal. -/
structure Crew where
  /-- The entry points that no worker has been started for. -/
  waiting : List EntryPoint
  /-- The workers whose plans have not been taken, in the order of their entry points. -/
  workers : List Worker
  /-- What has been reported, by whichever worker. -/
  journal : Journal
  /-- The plans that have been taken. -/
  plans : List Plan

/-- All plans have been taken. -/
def Crew.Done (crew : Crew) : Prop :=
  crew.waiting = [] ∧ crew.workers = []

namespace Catalog

/-- No worker has been started. -/
def crew (catalog : Catalog) (journal : Journal) : Crew :=
  { waiting := catalog.entries, workers := [], journal, plans := [] }

section

variable [Dialect]

/-- What happens next. -/
inductive CrewStep (catalog : Catalog) (options : Options) : Crew → Crew → Prop where
  /-- A worker is started for the next entry point. -/
  | start {entry waiting workers journal plans} :
    CrewStep catalog options ⟨entry :: waiting, workers, journal, plans⟩
      ⟨waiting, workers ++ [catalog.worker options entry], journal, plans⟩
  /-- One of the workers makes its next report. -/
  | report {waiting before d pending plan after journal plans} :
    CrewStep catalog options ⟨waiting, before ++ ⟨d :: pending, plan⟩ :: after, journal, plans⟩
      ⟨waiting, before ++ ⟨pending, plan⟩ :: after, journal.record [d], plans⟩
  /-- When all workers have been started, the plan of the next one is taken once it has made all
  its reports. -/
  | take {plan workers journal plans} :
    CrewStep catalog options ⟨[], ⟨[], plan⟩ :: workers, journal, plans⟩
      ⟨[], workers, journal, plans ++ [plan]⟩

variable {catalog : Catalog} {options : Options} {crew next : Crew}

/-- The number of steps that are left. -/
def stepsLeft (catalog : Catalog) (options : Options) (crew : Crew) : Nat :=
  (crew.waiting.map fun entry => (catalog.worker options entry).pending.length + 2).sum
    + (crew.workers.map fun worker => worker.pending.length + 1).sum

/-- Every step is one less. -/
theorem CrewStep.stepsLeft (h : catalog.CrewStep options crew next) :
  catalog.stepsLeft options crew = catalog.stepsLeft options next + 1
  := by
  cases h <;> simp [Catalog.stepsLeft] <;> omega

/-- A crew goes on until it is done. -/
theorem exists_step_of_not_done (h : ¬ crew.Done) :
  ∃ next, catalog.CrewStep options crew next
  := by
  obtain ⟨_ | ⟨entry, waiting⟩, workers, journal, plans⟩ := crew
  · obtain _ | ⟨⟨_ | ⟨d, pending⟩, plan⟩, workers⟩ := workers
    · cases h ⟨rfl, rfl⟩
    · exact ⟨_, .take⟩
    · exact ⟨_, @CrewStep.report _ _ _ [] [] d pending plan workers journal plans⟩
  · exact ⟨_, .start⟩

/-- What the crew is yet to report, for each of the workers in their order. -/
def pendingReports (catalog : Catalog) (options : Options) (crew : Crew) : List (List Diagnostic) :=
  crew.workers.map (·.pending)
    ++ crew.waiting.map fun entry => (catalog.worker options entry).pending

/-- The plans that are yet to be taken. -/
def pendingPlans (catalog : Catalog) (options : Options) (crew : Crew) : List Plan :=
  crew.workers.map (·.plan) ++ crew.waiting.map fun entry => (catalog.worker options entry).plan

/-- When the crew is done, it has taken all plans in their order, and its workers have made all their
reports, each in its own order. -/
theorem interleaves_of_done {final : Crew} (run : ReflTransGen (catalog.CrewStep options) crew final)
    (done : final.Done) :
  final.plans = crew.plans ++ catalog.pendingPlans options crew
    ∧ ∃ collected, final.journal = crew.journal.record collected
      ∧ Interleaves (catalog.pendingReports options crew) collected
  := by
  induction run using ReflTransGen.head_induction_on with
  | refl =>
      obtain ⟨waiting, workers⟩ := done
      simp only [pendingPlans, pendingReports, waiting, workers]
      use by simp, []
      constructor
      · simp [Journal.record]
      · apply Interleaves.spent
        simp
  | @head crew next step rest ih =>
      obtain ⟨plans, collected, journal, merged⟩ := ih
      cases step with
      | start =>
          constructor
          · simpa [pendingPlans] using plans
          · use collected, journal
            simpa [pendingReports] using merged
      | @report waiting before d pending plan after _ _ =>
          constructor
          · simpa [pendingPlans] using plans
          · use d :: collected
            constructor
            · simpa [Journal.record] using journal
            · simp only [pendingReports, List.map_append, List.map_cons, List.append_assoc,
                List.cons_append] at merged ⊢
              apply merged.next
      | take =>
          constructor
          · simpa [pendingPlans] using plans
          · use collected, journal
            simp only [pendingReports, List.map_cons, List.cons_append] at merged ⊢
            apply merged.cons_nil

/-- The workers may all be started before anything else happens. -/
theorem starts_all (waiting : List EntryPoint) (workers : List Worker) (journal : Journal)
    (plans : List Plan) :
  ReflTransGen (catalog.CrewStep options) ⟨waiting, workers, journal, plans⟩
    ⟨[], workers ++ waiting.map (catalog.worker options), journal, plans⟩
  := by
  induction waiting generalizing workers with
  | nil => simpa using ReflTransGen.refl
  | cons entry waiting ih =>
      apply ReflTransGen.head .start
      simpa using ih (workers ++ [catalog.worker options entry])

/-- When there is nothing left to report, the plans are taken. -/
theorem takes_all {workers : List Worker} (silent : ∀ worker ∈ workers, worker.pending = [])
    (journal : Journal) (plans : List Plan) :
  ∃ final, ReflTransGen (catalog.CrewStep options) ⟨[], workers, journal, plans⟩ final ∧ final.Done
    ∧ final.journal = journal
  := by
  induction workers generalizing plans with
  | nil => exact ⟨_, .refl, ⟨rfl, rfl⟩, rfl⟩
  | cons worker workers ih =>
      obtain ⟨pending, plan⟩ := worker
      obtain rfl : pending = [] := silent _ List.mem_cons_self
      obtain ⟨final, rest, done⟩ :=
        ih (fun worker member => silent worker (List.mem_cons_of_mem _ member)) (plans ++ [plan])
      use final, .head .take rest

/-- The reports of the workers may arrive in any order that keeps that of each worker. -/
theorem exists_run_of_interleaves {lists : List (List Diagnostic)} {collected : List Diagnostic}
    (h : Interleaves lists collected) {workers : List Worker}
    (pending : workers.map (·.pending) = lists) (journal : Journal) (plans : List Plan) :
  ∃ final, ReflTransGen (catalog.CrewStep options) ⟨[], workers, journal, plans⟩ final ∧ final.Done
    ∧ final.journal = journal.record collected
  := by
  induction h generalizing workers journal with
  | spent empty =>
      have silent : ∀ worker ∈ workers, worker.pending = [] := by
        intro worker member
        apply empty
        rw [← pending]
        apply List.mem_map_of_mem member
      obtain ⟨final, run, done, same⟩ := takes_all silent journal plans
      use final, run, done
      simpa [Journal.record] using same
  | @next _ list _ x _ _ ih =>
      obtain ⟨before, rest, rfl, rfl, split⟩ := List.map_eq_append_iff.mp pending
      obtain ⟨⟨_, plan⟩, after, rfl, rfl, rfl⟩ := List.map_eq_cons_iff.mp split
      have pending' : (before ++ ⟨list, plan⟩ :: after).map (·.pending)
          = before.map (·.pending) ++ list :: after.map (·.pending) := by simp
      obtain ⟨final, run, done, recorded⟩ := ih pending' (journal.record [x])
      use final, .head .report run, done
      simpa [Journal.record] using recorded

theorem plan?_planAll (catalog : Catalog) (options : Options) (name : String) :
  (catalog.planAll options).value.plan? name = (catalog.planNamed? options name).map (·.value)
  := by
  simp only [Plans.plan?, planAll, Reported.value_bind, Reported.value_mapM, Reported.value_pure,
    List.find?_map, planNamed?, entry?, Option.map_map]
  rfl

/-- What is planned by name is planned for the first entry point of that name. -/
theorem planNamed?_eq_some {name : String} {named : Reported Plan}
    (h : catalog.planNamed? options name = some named) :
  ∃ before entry after, catalog.entries = before ++ entry :: after ∧ entry.name = name
    ∧ (∀ other ∈ before, other.name ≠ name) ∧ named = catalog.planEntry options entry
  := by
  obtain ⟨entry, found, rfl⟩ := Option.map_eq_some_iff.mp h
  obtain ⟨same, before, after, entries, others⟩ := List.find?_eq_some_iff_append.mp found
  use before, entry, after, entries, by simpa using same
  constructor
  · simpa using others
  · rfl

/-- The plans that are made by workers, whatever the order in which these report, are those that are
made one after the other. The journals agree, and in that of the workers the reports of each entry
point keep their order; any order that does this may come about. Every crew is done after as many
steps. What is planned by name alone is planned and reported as it is for the first entry point of
that name, if there is one. -/
theorem planned_in_parallel (catalog : Catalog) (options : Options) (journal : Journal) :
  let run := catalog.planAll options
  let reports := fun entry => (catalog.planEntry options entry).reports
  (∀ crew next, catalog.CrewStep options crew next →
      catalog.stepsLeft options crew = catalog.stepsLeft options next + 1)
    ∧ (∀ crew : Crew, ¬ crew.Done → ∃ next, catalog.CrewStep options crew next)
    ∧ (∀ final, ReflTransGen (catalog.CrewStep options) (catalog.crew journal) final → final.Done →
      final.plans = run.value.plans
        ∧ (∃ collected, final.journal = journal.record collected
          ∧ Interleaves (catalog.entries.map reports) collected
          ∧ (∀ entry ∈ catalog.entries, (reports entry).Sublist collected)
          ∧ collected.Perm run.reports)
        ∧ final.journal.Agrees (journal.record run.reports))
    ∧ (∀ collected, Interleaves (catalog.entries.map reports) collected →
      ∃ final, ReflTransGen (catalog.CrewStep options) (catalog.crew journal) final ∧ final.Done
        ∧ final.journal = journal.record collected)
    ∧ ∀ name, match catalog.planNamed? options name with
      | none => ∀ entry ∈ catalog.entries, entry.name ≠ name
      | some named => run.value.plan? name = some named.value
        ∧ ∃ before entry after, catalog.entries = before ++ entry :: after ∧ entry.name = name
          ∧ (∀ other ∈ before, other.name ≠ name)
          ∧ run.value.plans[before.length]? = some named.value
          ∧ named.reports = reports entry
          ∧ run.reports = before.flatMap reports ++ named.reports ++ after.flatMap reports
  := by
  intro run reports
  have plans : run.value.plans
      = catalog.entries.map fun entry => (catalog.planEntry options entry).value := by
    simp [run, planAll]
  have reports_eq : run.reports = catalog.entries.flatMap reports := by
    simp [run, planAll, reports]
  refine ⟨fun _ _ => CrewStep.stepsLeft, fun _ => exists_step_of_not_done, ?_, ?_, ?_⟩
  · intro final steps done
    obtain ⟨taken, collected, recorded, merged⟩ := interleaves_of_done steps done
    have perm : collected.Perm run.reports := by
      rw [reports_eq, List.flatMap_def]
      apply merged.perm
    have kept : ∀ entry ∈ catalog.entries, (reports entry).Sublist collected := by
      intro entry member
      apply merged.sublist
      apply List.mem_map_of_mem member
    refine ⟨?_, ⟨collected, recorded, merged, kept, perm⟩, ?_⟩
    · rw [taken, plans]
      rfl
    · apply Journal.agrees_of_perm
      rw [recorded]
      apply perm.append_left
  · intro collected merged
    obtain ⟨final, steps, done, recorded⟩ := @exists_run_of_interleaves _ catalog options _ _ merged
      (catalog.entries.map (catalog.worker options)) (by simp [worker, reports]) journal []
    use final, (starts_all catalog.entries [] journal []).trans steps, done
  · intro name
    cases h : catalog.planNamed? options name with
    | none => simpa [planNamed?, entry?] using h
    | some named =>
        obtain ⟨before, entry, after, entries, same, others, rfl⟩ := planNamed?_eq_some h
        constructor
        · rw [plan?_planAll, h]
          rfl
        · use before, entry, after, entries, same, others
          refine ⟨?_, rfl, ?_⟩
          · simp [plans, entries]
          · simp [reports_eq, entries, reports]

end

/-- A customer who asks for one thing. -/
def customer (name key : String) : EntryPoint where
  name := name
  modules := []
  requests := [⟨.ofKey key, {}⟩]

/-- Two customers in a shop that has nothing. -/
def shop : Catalog where
  entries := [customer "first" "tea", customer "second" "milk"]

/-- The second customer may complain before the first one does. -/
theorem planned_in_parallel_shop :
  ∃ final, ReflTransGen (shop.CrewStep {}) (shop.crew {}) final ∧ final.Done
    ∧ final.plans = (shop.planAll {}).value.plans
    ∧ final.journal.entries = (shop.planAll {}).reports.reverse
    ∧ final.journal.countOf .error = 2
  := by
  have tea : (shop.planEntry {} (customer "first" "tea")).reports
      = [⟨.bindingNotFound "tea", {}⟩] := by
    rw [planEntry, Injector.ofEntry_eq]
    decide +kernel
  have milk : (shop.planEntry {} (customer "second" "milk")).reports
      = [⟨.bindingNotFound "milk", {}⟩] := by
    rw [planEntry, Injector.ofEntry_eq]
    decide +kernel
  have reports : shop.entries.map (fun entry => (shop.planEntry {} entry).reports)
      = [[⟨.bindingNotFound "tea", {}⟩], [⟨.bindingNotFound "milk", {}⟩]] := by
    have entries : shop.entries = [customer "first" "tea", customer "second" "milk"] := rfl
    rw [entries, List.map_cons, List.map_singleton, tea, milk]
  have all : (shop.planAll {}).reports
      = [⟨.bindingNotFound "tea", {}⟩, ⟨.bindingNotFound "milk", {}⟩] := by
    simp [planAll, List.flatMap_def, reports]
  obtain ⟨-, -, agrees, arrives, -⟩ := planned_in_parallel shop {} {}
  have merged : Interleaves (shop.entries.map fun entry => (shop.planEntry {} entry).reports)
      [⟨.bindingNotFound "milk", {}⟩, ⟨.bindingNotFound "tea", {}⟩] := by
    rw [reports]
    apply @Interleaves.next _ [_] [] [] _ _
    apply @Interleaves.next _ [] [] [_] _ _
    apply Interleaves.spent
    simp
  obtain ⟨final, steps, done, recorded⟩ := arrives _ merged
  obtain ⟨plans, -, same⟩ := agrees final steps done
  refine ⟨final, steps, done, plans, ?_, ?_⟩
  · rw [recorded, all]
    rfl
  · rw [same.count, all]
    rfl

end Catalog

end Wiring
