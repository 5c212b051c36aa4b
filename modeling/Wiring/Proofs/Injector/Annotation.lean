import Wiring.Injector.Selection
import Wiring.Proofs.Diagnostic.Reported
import Wiring.Proofs.FirstOfEach
import Wiring.Proofs.Matcher

/-!
# Annotation of classes

Whatever the matcher has been asked before, trying the interceptors on a class comes to noting one hit
after the other (`Injector.comesTo_annotateClass`), and what hits come to can be told without regard to
their order on the other methods (`Annotation.Notes`).
-/

namespace Wiring

namespace Matching

variable [Dialect] {α β : Type} {bases : Bases} {mode : NamespaceMode}

/-- With any sound matcher the computation comes to this, and the matcher is sound afterwards. -/
def ComesTo (bases : Bases) (mode : NamespaceMode) (x : Matching α) (y : Reported α) : Prop :=
  ∀ matcher : Matcher, matcher.Sound bases mode →
    (x.run matcher).value.1 = y.value ∧ (x.run matcher).reports = y.reports
      ∧ (x.run matcher).value.2.Sound bases mode

theorem comesTo_pure (a : α) :
  ComesTo bases mode (pure a) (pure a)
  := fun _ sound => ⟨rfl, rfl, sound⟩

theorem comesTo_lift (y : Reported α) :
  ComesTo bases mode (liftM y) y
  := fun _ sound => ⟨rfl, List.append_nil _, sound⟩

theorem comesTo_ask {question : Matcher → α × Matcher} {answer : α}
    (h : ∀ matcher : Matcher, matcher.Sound bases mode →
      (question matcher).1 = answer ∧ (question matcher).2.Sound bases mode) :
  ComesTo bases mode (modifyGet question) (pure answer)
  := fun matcher sound => ⟨(h matcher sound).1, rfl, (h matcher sound).2⟩

theorem ComesTo.bind {x : Matching α} {y : Reported α} (h : ComesTo bases mode x y)
    {f : α → Matching β} {g : α → Reported β} (next : ∀ a, ComesTo bases mode (f a) (g a)) :
  ComesTo bases mode (x >>= f) (y >>= g)
  := by
  intro matcher sound
  obtain ⟨value, reports, sound⟩ := h matcher sound
  obtain ⟨value', reports', sound'⟩ := next (x.run matcher).value.1 _ sound
  rw [StateT.run_bind, Reported.value_bind, Reported.reports_bind, Reported.value_bind,
    Reported.reports_bind, ← value, ← reports, ← value', ← reports']
  exact ⟨rfl, rfl, sound'⟩

/-- What is done depends on the answer to a question. -/
theorem comesTo_if {question : Matcher → Bool × Matcher} {answer : Bool}
    (h : ∀ matcher : Matcher, matcher.Sound bases mode →
      (question matcher).1 = answer ∧ (question matcher).2.Sound bases mode)
    {x : Matching α} {y : Reported α} (yes : ComesTo bases mode x y) (a : α) :
  ComesTo bases mode (do if ← modifyGet question then x else return a)
    (if answer then y else pure a)
  := by
  apply (comesTo_ask h).bind (g := fun answer => if answer then y else pure a)
  intro answer
  cases answer with
  | true => exact yes
  | false => exact comesTo_pure a

theorem comesTo_foldlM {f : β → α → Matching β} {g : β → α → Reported β}
    (step : ∀ b a, ComesTo bases mode (f b a) (g b a)) (xs : List α) (b : β) :
  ComesTo bases mode (xs.foldlM f b) (xs.foldlM g b)
  := by
  induction xs generalizing b with
  | nil => exact comesTo_pure b
  | cons x xs ih =>
      rw [List.foldlM_cons, List.foldlM_cons]
      exact (step b x).bind ih

theorem comesTo_mapM {f : α → Matching β} {g : α → Reported β}
    (step : ∀ a, ComesTo bases mode (f a) (g a)) (xs : List α) :
  ComesTo bases mode (xs.mapM f) (xs.mapM g)
  := by
  induction xs with
  | nil => exact comesTo_pure []
  | cons x xs ih =>
      rw [List.mapM_cons, List.mapM_cons]
      exact (step x).bind fun b => ih.bind fun bs => comesTo_pure (b :: bs)

end Matching

/-! ### Hits -/

/-- The methods that a selector selects, as hits of the interceptor at a place. -/
def hitsOn (methods : List MethodDecl) (place : Nat) (s : MethodSelector) : List Hit :=
  (methods.zipIdx.filter fun x => s.selects x.1).map fun x => ⟨place, x.1, x.2⟩

namespace Injector

variable [Dialect]

/-- The interceptors whose class selector selects a class, with their places. -/
def aimedAt (bases : Bases) (mode : NamespaceMode) (inj : Injector) (c : ClassDecl) :
    List (OwnedInterceptor × Nat) :=
  inj.interceptors.zipIdx.filter fun (i, _) => i.interceptor.classSelector.selects bases mode c

/-- What the interceptors hit in a class, one interceptor after the other. -/
def hits (bases : Bases) (mode : NamespaceMode) (inj : Injector) (c : ClassDecl) : List Hit :=
  (inj.aimedAt bases mode c).flatMap fun (i, place) =>
    hitsOn c.methods place i.interceptor.methodSelector

end Injector

/-- The steps of a list of lists are those of the lists, one after the other. -/
theorem Reported.foldlM_flatMap {α β γ : Type} (step : β → γ → Reported β) (f : α → List γ)
    (xs : List α) (b : β) :
  (xs.flatMap f).foldlM step b = xs.foldlM (fun b x => (f x).foldlM step b) b
  := by
  induction xs generalizing b with
  | nil => rfl
  | cons x xs ih =>
      rw [List.flatMap_cons, List.foldlM_append, List.foldlM_cons]
      simp only [ih]

section

open Matching

variable [Dialect] {bases : Bases} {mode : NamespaceMode}

namespace Annotation

theorem comesTo_tryMethods (methods : List MethodDecl) (place : Nat) (s : MethodSelector)
    (a : Annotation) :
  ComesTo bases mode (a.tryMethods methods place s) ((hitsOn methods place s).foldlM note a)
  := by
  rw [hitsOn, List.foldlM_map, List.foldlM_filter]
  apply comesTo_foldlM
  rintro a ⟨method, position⟩
  exact comesTo_if (fun _ sound => sound.selectsMethod s method) (comesTo_lift _) a

theorem comesTo_tryInterceptor (c : ClassDecl) (i : Interceptor) (place : Nat) (a : Annotation) :
  ComesTo bases mode (a.tryInterceptor c i place)
    (if i.classSelector.selects bases mode c then
      (hitsOn c.methods place i.methodSelector).foldlM note a
    else pure a)
  :=
  comesTo_if (fun _ sound => sound.selectsClass i.classSelector c)
    (a.comesTo_tryMethods c.methods place i.methodSelector) a

end Annotation

/-- Trying the interceptors on a class is noting their hits. -/
theorem Injector.comesTo_annotateClass (inj : Injector) (c : ManagedClass) :
  ComesTo bases mode (inj.annotateClass c)
    (do
      let a ← (inj.hits bases mode c.decl).foldlM Annotation.note { managed := c }
      return a.managed)
  := by
  have tried : ComesTo bases mode
      (inj.interceptors.zipIdx.foldlM
        (fun a (i, place) => a.tryInterceptor c.decl i.interceptor place)
        ({ managed := c } : Annotation))
      ((inj.hits bases mode c.decl).foldlM Annotation.note { managed := c }) := by
    rw [hits, Reported.foldlM_flatMap, aimedAt, List.foldlM_filter]
    apply comesTo_foldlM
    rintro a ⟨i, place⟩
    exact a.comesTo_tryInterceptor c.decl i.interceptor place
  exact tried.bind fun a => comesTo_pure a.managed

end

/-! ### What hits come to -/

/-- What is reported of a hit on an ambiguous method. -/
def Hit.complaint (className : String) (hit : Hit) : Diagnostic where
  problem := .ambiguousMethod className hit.method.name
  location := hit.method.location

/-- The hits on methods whose declarations agree. -/
def agreed (hits : List Hit) : List Hit :=
  hits.filter fun hit => !hit.method.ambiguous

/-- The hits on methods whose declarations disagree. -/
def disagreed (hits : List Hit) : List Hit :=
  hits.filter fun hit => hit.method.ambiguous

/-- The places on the methods of a class after some hits. -/
def placesAfter (selected : List (List Nat)) (hits : List Hit) : List (List Nat) :=
  hits.foldl (fun selected hit => selected.modify hit.position (addPlace hit.place)) selected

/-- A class after some hits. -/
def ManagedClass.noted (c : ManagedClass) (hits : List Hit) : ManagedClass :=
  { c with
    selected := placesAfter c.selected (agreed hits)
    isIntercepted := c.isIntercepted || agreed hits ≠ [] }

@[simp]
theorem ManagedClass.decl_noted (c : ManagedClass) (hits : List Hit) :
  (c.noted hits).decl = c.decl
  := rfl

namespace Annotation

/-- The class has been changed and reports have been made as the hits so far demand. -/
structure Notes (c : ManagedClass) (hits : List Hit) (a : Annotation) (reports : List Diagnostic) :
    Prop where
  managed : a.managed = c.noted hits
  reported : ∀ position, position ∈ a.reported ↔ position ∈ (disagreed hits).map (·.position)
  reports : reports = (firstOfEach (·.position) (disagreed hits)).map (·.complaint c.name)

theorem notes_nil (c : ManagedClass) :
  Notes c [] { managed := c } []
  where
  managed := by simp [ManagedClass.noted, agreed, placesAfter]
  reported _ := Iff.rfl
  reports := rfl

/-- A further hit is noted. -/
theorem Notes.note {c : ManagedClass} {hits : List Hit} {a : Annotation}
    {reports : List Diagnostic} (h : a.Notes c hits reports) (hit : Hit) :
  (a.note hit).value.Notes c (hits ++ [hit]) (reports ++ (a.note hit).reports)
  := by
  unfold Annotation.note
  cases ambiguous : hit.method.ambiguous with
  | true =>
      have kept : agreed (hits ++ [hit]) = agreed hits := by simp [agreed, ambiguous]
      have added : disagreed (hits ++ [hit]) = disagreed hits ++ [hit] := by
        simp [disagreed, ambiguous]
      have managed : a.managed = c.noted (hits ++ [hit]) := by
        rw [h.managed, ManagedClass.noted, ManagedClass.noted, kept]
      rw [if_pos rfl]
      split
      · next before =>
          -- the method has been reported already
          have known := (h.reported hit.position).mp before
          constructor
          · exact managed
          · intro position
            rw [h.reported, added, List.map_append, List.mem_append, or_iff_left_of_imp]
            intro last
            rwa [List.mem_singleton.mp last]
          · rw [added, firstOfEach_concat, if_pos known, h.reports, List.append_nil]
      · next new =>
          have unknown := mt (h.reported hit.position).mpr new
          have name : a.managed.name = c.name := by
            rw [h.managed]
            rfl
          constructor
          · exact managed
          · intro position
            rw [Reported.value_bind, Reported.value_pure, List.mem_cons, h.reported, added,
              List.map_append, List.mem_append, or_comm]
            exact or_congr_right List.mem_singleton.symm
          · rw [added, firstOfEach_concat, if_neg unknown, h.reports, List.map_append, name]
            rfl
  | false =>
      have added : agreed (hits ++ [hit]) = agreed hits ++ [hit] := by simp [agreed, ambiguous]
      have kept : disagreed (hits ++ [hit]) = disagreed hits := by simp [disagreed, ambiguous]
      rw [if_neg Bool.false_ne_true]
      constructor
      · rw [ManagedClass.noted, added, placesAfter, List.foldl_append, h.managed]
        simp [ManagedClass.noted, placesAfter]
      · rw [kept]
        exact h.reported
      · rw [kept, h.reports, List.append_nil]

/-- Hits are noted one after the other. -/
theorem notes_foldlM (c : ManagedClass) (hits : List Hit) :
  (hits.foldlM note { managed := c }).value.Notes c hits
    (hits.foldlM note { managed := c }).reports
  := by
  have run := Reported.foldlM_accounts (P := Notes c)
    (fun seen a reports hit (h : a.Notes c seen reports) => h.note hit) hits (notes_nil c)
  exact run

end Annotation

/-- What comes of trying the interceptors on a class. -/
def Injector.selectFor [Dialect] (bases : Bases) (mode : NamespaceMode) (inj : Injector)
    (c : ManagedClass) : Reported ManagedClass where
  value := c.noted (inj.hits bases mode c.decl)
  reports := (firstOfEach (·.position) (disagreed (inj.hits bases mode c.decl))).map
    (·.complaint c.name)

namespace Injector

open Matching

variable [Dialect] {bases : Bases} {mode : NamespaceMode}

theorem comesTo_selectFor (inj : Injector) (c : ManagedClass) :
  ComesTo bases mode (inj.annotateClass c) (inj.selectFor bases mode c)
  := by
  intro matcher sound
  obtain ⟨value, reports, sound⟩ := inj.comesTo_annotateClass c matcher sound
  have notes := Annotation.notes_foldlM c (inj.hits bases mode c.decl)
  refine ⟨?_, ?_, sound⟩
  · rw [value, Reported.value_bind, Reported.value_pure, notes.managed]
    rfl
  · rw [reports, Reported.reports_bind, Reported.reports_pure, List.append_nil, notes.reports]
    rfl

theorem comesTo_annotate (inj : Injector) :
  ComesTo bases mode inj.annotate
    (do
      let classes ← inj.classes.mapM (inj.selectFor bases mode)
      return { inj with classes })
  := (comesTo_mapM inj.comesTo_selectFor inj.classes).bind fun _ => comesTo_pure _

/-- A new matcher, like any other, lets the interceptors select so. -/
theorem select_eq (catalog : Catalog) (mode : NamespaceMode) (inj : Injector) :
  inj.select catalog mode
    = (do
      let classes ← inj.classes.mapM (inj.selectFor catalog.bases mode)
      return { inj with classes })
  := by
  obtain ⟨value, reports, -⟩ := inj.comesTo_annotate _ (Matcher.sound_new catalog.bases mode)
  have both (x y : Reported Injector) (value : x.value = y.value) (reports : x.reports = y.reports) :
      x = y := by
    cases x
    cases y
    simp_all
  apply both
  · exact value
  · rw [← reports]
    exact List.append_nil _

end Injector

end Wiring
