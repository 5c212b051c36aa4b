import Wiring.Catalog.Registry
import Wiring.Proofs.Injector.Annotation
import Mathlib.Data.List.Perm.Basic

/-!
# Selected places

The places on a method after its class has been annotated: those of the interceptors that select it, in
their order and none of them twice, or nothing new if the method is ambiguous
(`Injector.selected_selectFor`). Trying the same interceptors once more adds nothing
(`ManagedClass.noted_noted`).
-/

namespace Wiring

/-! ### Places of hits -/

section

variable {places : List Nat}

/-- Places that are added one after the other. -/
def addPlaces (places added : List Nat) : List Nat :=
  added.foldl (fun places place => addPlace place places) places

theorem mem_addPlace {place other : Nat} :
  other ∈ addPlace place places ↔ other ∈ places ∨ other = place
  := by
  unfold addPlace
  split
  · next member =>
      rw [or_iff_left_of_imp]
      rintro rfl
      exact member
  · simp

theorem mem_addPlaces {added : List Nat} {other : Nat} :
  other ∈ addPlaces places added ↔ other ∈ places ∨ other ∈ added
  := by
  induction added generalizing places with
  | nil => simp [addPlaces]
  | cons place added ih =>
      rw [addPlaces, List.foldl_cons, ← addPlaces, ih, mem_addPlace, List.mem_cons, or_assoc]

/-- Places that are there already are not added. -/
theorem addPlaces_of_subset {added : List Nat} (h : added ⊆ places) :
  addPlaces places added = places
  := by
  induction added with
  | nil => rfl
  | cons place added ih =>
      have known : addPlace place places = places := if_pos (h List.mem_cons_self)
      rw [addPlaces, List.foldl_cons, known]
      exact ih fun other member => h (List.mem_cons_of_mem _ member)

/-- Of distinct places those are added that are not there. -/
theorem addPlaces_of_nodup {added : List Nat} (distinct : added.Nodup) :
  addPlaces places added = places ++ added.filter (· ∉ places)
  := by
  induction added generalizing places with
  | nil => simp [addPlaces]
  | cons place added ih =>
      obtain ⟨new, distinct⟩ := List.nodup_cons.mp distinct
      rw [addPlaces, List.foldl_cons, ← addPlaces, ih distinct]
      by_cases known : place ∈ places
      · simp [addPlace, known]
      · have others : added.filter (fun other => decide (other ∉ places ++ [place]))
            = added.filter fun other => decide (other ∉ places) := by
          apply List.filter_congr
          intro other member
          have apart : other ≠ place := fun eq => new (eq ▸ member)
          simp [apart]
        rw [addPlace, if_neg known, others]
        simp [known]

end

/-- On a method those places are added that belong to hits on it. -/
theorem getElem?_placesAfter (selected : List (List Nat)) (hits : List Hit) (position : Nat) :
  (placesAfter selected hits)[position]?
    = selected[position]?.map fun places =>
      addPlaces places ((hits.filter (·.position = position)).map (·.place))
  := by
  induction hits generalizing selected with
  | nil => simp [placesAfter, addPlaces]
  | cons hit hits ih =>
      rw [placesAfter, List.foldl_cons, ← placesAfter, ih, List.getElem?_modify]
      by_cases here : hit.position = position <;>
        cases selected[position]? <;> simp [here, addPlaces]

/-- Hits that have been noted change nothing. -/
theorem ManagedClass.noted_noted (c : ManagedClass) (hits : List Hit) :
  (c.noted hits).noted hits = c.noted hits
  := by
  have selected : placesAfter (placesAfter c.selected (agreed hits)) (agreed hits)
      = placesAfter c.selected (agreed hits) := by
    apply List.ext_getElem?
    intro position
    rw [getElem?_placesAfter, getElem?_placesAfter, Option.map_map]
    apply Option.map_congr
    intro places _
    apply addPlaces_of_subset
    intro place member
    exact mem_addPlaces.mpr (.inr member)
  rw [noted, noted, selected, Bool.or_assoc, Bool.or_self]

/-! ### Places by interceptors -/

/-- Of a list with places, what stands at one place. -/
theorem filter_zipIdx_eq {α : Type} (xs : List α) (position : Nat) :
  (xs.zipIdx.filter fun x => decide (x.2 = position)) = xs[position]?.toList.map fun x => (x, position)
  := by
  induction xs using List.reverseRecOn with
  | nil => rfl
  | append_singleton xs last ih =>
      rw [List.zipIdx_append, List.filter_append, ih]
      obtain before | rfl | behind := Nat.lt_trichotomy position xs.length
      · have ne : xs.length ≠ position := by omega
        simp [List.getElem?_append_left before, ne]
      · simp
      · have ne : xs.length ≠ position := by omega
        have longer : (xs ++ [last])[position]? = none :=
          List.getElem?_eq_none (by rw [List.length_append, List.length_singleton]; omega)
        have shorter : xs[position]? = none := List.getElem?_eq_none (by omega)
        simp [longer, shorter, ne]

/-- The places of the elements that pass a test, in their order. -/
theorem map_snd_filter_zipIdx {α : Type} (xs : List α) (test : α → Bool) :
  (xs.zipIdx.filter fun x => test x.1).map (·.2)
    = (List.range xs.length).filter fun place => xs[place]?.any test
  := by
  induction xs using List.reverseRecOn with
  | nil => rfl
  | append_singleton xs last ih =>
      have before : (List.range xs.length).filter (fun place => (xs ++ [last])[place]?.any test)
          = (List.range xs.length).filter fun place => xs[place]?.any test := by
        apply List.filter_congr
        intro place member
        rw [List.getElem?_append_left (List.mem_range.mp member)]
      rw [List.zipIdx_append, List.filter_append, List.map_append, ih, List.length_append,
        List.length_singleton, List.range_succ, List.filter_append, before]
      cases passes : test last <;> simp [passes]

theorem flatMap_ite_singleton {α β : Type} (test : α → Bool) (f : α → β) (xs : List α) :
  (xs.flatMap fun x => if test x then [f x] else []) = (xs.filter test).map f
  := by
  induction xs with
  | nil => rfl
  | cons x xs ih => cases passes : test x <;> simp [passes, ih]

namespace Injector

/-- The places of those interceptors that select a method. -/
def selecting (aimed : List (OwnedInterceptor × Nat)) (m : MethodDecl) : List Nat :=
  (aimed.filter fun (i, _) => i.interceptor.methodSelector.selects m).map (·.2)

/-- The places on a method: none if its declarations disagree. -/
def selectMethod (aimed : List (OwnedInterceptor × Nat)) (m : MethodDecl) : List Nat :=
  if m.ambiguous then [] else selecting aimed m

variable [Dialect] {bases : Bases} {mode : NamespaceMode} {inj : Injector} {c : ClassDecl}
  {m : MethodDecl}

/-- The interceptors that select a method, by their places. -/
theorem selecting_eq (inj : Injector) (c : ClassDecl) (m : MethodDecl) :
  selecting (inj.aimedAt bases mode c) m
    = (List.range inj.interceptors.length).filter fun place => inj.interceptors[place]?.any fun i =>
      i.interceptor.classSelector.selects bases mode c && i.interceptor.methodSelector.selects m
  := by
  rw [← map_snd_filter_zipIdx, selecting, aimedAt, List.filter_filter]
  simp only [Bool.and_comm]

theorem nodup_selecting (inj : Injector) (c : ClassDecl) (m : MethodDecl) :
  (selecting (inj.aimedAt bases mode c) m).Nodup
  := by
  rw [selecting_eq]
  exact List.nodup_range.filter _

/-- The hits on a method are by the interceptors that select it. -/
theorem places_hits {position : Nat} (declared : c.methods[position]? = some m) :
  ((agreed (inj.hits bases mode c)).filter (·.position = position)).map (·.place)
    = selectMethod (inj.aimedAt bases mode c) m
  := by
  have here : (c.methods.zipIdx.filter fun x => decide (x.2 = position)) = [(m, position)] := by
    rw [filter_zipIdx_eq, declared]
    rfl
  have one (place : Nat) (s : MethodSelector) :
      (((hitsOn c.methods place s).filter fun hit => !hit.method.ambiguous).filter
          (·.position = position)).map (·.place)
        = if !m.ambiguous && s.selects m then [place] else [] := by
    calc (((hitsOn c.methods place s).filter fun hit => !hit.method.ambiguous).filter
          (·.position = position)).map (·.place)
      _ = ((c.methods.zipIdx.filter fun x => decide (x.2 = position)).filter
          fun x => !x.1.ambiguous && s.selects x.1).map fun _ => place := by
        rw [hitsOn, List.filter_filter, List.filter_map, List.map_map, List.filter_filter,
          List.filter_filter]
        congr 2
        funext x
        simp only [Function.comp_apply, Bool.and_assoc, Bool.and_comm]
        apply Bool.and_left_comm
      _ = if !m.ambiguous && s.selects m then [place] else [] := by
        rw [here, List.filter_singleton]
        cases !m.ambiguous && s.selects m <;> rfl
  rw [hits, agreed, List.filter_flatMap, List.filter_flatMap, List.map_flatMap]
  simp only [one, selectMethod]
  cases m.ambiguous with
  | true => simp
  | false => exact flatMap_ite_singleton _ _ _

/-- A hit is by an interceptor that selects the method. -/
theorem mem_hits {hit : Hit} :
  hit ∈ inj.hits bases mode c
    ↔ c.methods[hit.position]? = some hit.method
      ∧ hit.place ∈ selecting (inj.aimedAt bases mode c) hit.method
  := by
  simp only [hits, hitsOn, selecting, List.mem_flatMap, List.mem_map, List.mem_filter,
    List.mem_zipIdx_iff_getElem?]
  constructor
  · rintro ⟨x, aimed, y, ⟨declared, selects⟩, rfl⟩
    exact ⟨declared, x, ⟨aimed, selects⟩, rfl⟩
  · rintro ⟨declared, x, ⟨aimed, selects⟩, place⟩
    refine ⟨x, aimed, (hit.method, hit.position), ⟨declared, selects⟩, ?_⟩
    rw [place]

variable {managed : ManagedClass}

/-- On a class without any interceptor those places are selected that belong to its methods. -/
theorem selected_selectFor (plain : managed.selected = managed.decl.methods.map fun _ => []) :
  (inj.selectFor bases mode managed).value.selected
    = managed.decl.methods.map (selectMethod (inj.aimedAt bases mode managed.decl))
  := by
  apply List.ext_getElem?
  intro position
  rw [selectFor, ManagedClass.noted, getElem?_placesAfter, plain, List.getElem?_map,
    List.getElem?_map, Option.map_map]
  apply Option.map_congr
  intro m declared
  have distinct : (selectMethod (inj.aimedAt bases mode managed.decl) m).Nodup := by
    unfold selectMethod
    split
    · exact List.nodup_nil
    · apply nodup_selecting
  rw [Function.comp_apply, places_hits declared, addPlaces_of_nodup distinct]
  simp

/-- There is a hit exactly if a place is selected. -/
theorem agreed_hits_ne_nil_iff :
  agreed (inj.hits bases mode c) ≠ []
    ↔ ∃ m ∈ c.methods, selectMethod (inj.aimedAt bases mode c) m ≠ []
  := by
  constructor
  · intro some
    obtain ⟨hit, member⟩ := List.exists_mem_of_ne_nil _ some
    obtain ⟨member, agree⟩ := List.mem_filter.mp member
    obtain ⟨declared, place⟩ := mem_hits.mp member
    use hit.method, List.mem_of_getElem? declared
    have agree : hit.method.ambiguous = false := by simpa using agree
    rw [selectMethod, agree]
    exact List.ne_nil_of_mem place
  · rintro ⟨m, member, some⟩
    obtain ⟨position, declared⟩ := List.mem_iff_getElem?.mp member
    rw [← places_hits declared] at some
    intro none
    simp [none] at some

theorem isIntercepted_selectFor (plain : managed.isIntercepted = false) :
  (inj.selectFor bases mode managed).value.isIntercepted = true
    ↔ agreed (inj.hits bases mode managed.decl) ≠ []
  := by
  simp [selectFor, ManagedClass.noted, plain]

/-- The methods of a class that are reported: each ambiguous one that an interceptor selects, once. -/
theorem perm_reported (inj : Injector) (c : ClassDecl) :
  ((firstOfEach (·.position) (disagreed (inj.hits bases mode c))).map (·.method)).Perm
    (c.methods.filter fun m => m.ambiguous && selecting (inj.aimedAt bases mode c) m ≠ [])
  := by
  let reported := firstOfEach (·.position) (disagreed (inj.hits bases mode c))
  let due := c.methods.zipIdx.filter fun x =>
    x.1.ambiguous && selecting (inj.aimedAt bases mode c) x.1 ≠ []
  -- two hits on one method agree in their positions, so the methods come with these
  have distinct : (reported.map fun hit => (hit.method, hit.position)).Nodup := by
    apply List.Nodup.of_map Prod.snd
    rw [List.map_map]
    exact nodup_firstOfEach (fun hit : Hit => hit.position) _
  have distinct' : due.Nodup := by
    apply List.Nodup.filter
    apply List.Nodup.of_map Prod.snd
    rw [List.zipIdx_map_snd]
    exact List.nodup_range'
  have same : (reported.map fun hit => (hit.method, hit.position)).Perm due := by
    apply (List.perm_ext_iff_of_nodup distinct distinct').mpr
    rintro ⟨m, position⟩
    simp only [due, List.mem_filter, List.mem_zipIdx_iff_getElem?]
    constructor
    · intro member
      obtain ⟨hit, first, eq⟩ := List.mem_map.mp member
      obtain ⟨rfl, rfl⟩ := Prod.mk.inj eq
      obtain ⟨hits, ambiguous⟩ := List.mem_filter.mp (mem_of_mem_firstOfEach _ first)
      obtain ⟨declared, place⟩ := mem_hits.mp hits
      use declared
      simpa [ambiguous] using List.ne_nil_of_mem place
    · rintro ⟨declared, passes⟩
      obtain ⟨ambiguous, some⟩ : m.ambiguous = true
          ∧ selecting (inj.aimedAt bases mode c) m ≠ [] := by simpa using passes
      obtain ⟨place, member⟩ := List.exists_mem_of_ne_nil _ some
      have hit : (⟨place, m, position⟩ : Hit) ∈ disagreed (inj.hits bases mode c) :=
        List.mem_filter.mpr ⟨mem_hits.mpr ⟨declared, member⟩, ambiguous⟩
      -- the hit that is reported may be another one on the method
      have position_mem : position ∈ reported.map (·.position) :=
        (mem_map_firstOfEach (fun hit : Hit => hit.position)).mpr (List.mem_map_of_mem hit)
      obtain ⟨first, member, rfl⟩ := List.mem_map.mp position_mem
      obtain ⟨member', -⟩ := List.mem_filter.mp (mem_of_mem_firstOfEach _ member)
      have eq := (mem_hits.mp member').1.symm.trans declared
      refine List.mem_map.mpr ⟨first, member, ?_⟩
      rw [Option.some.inj eq]
  have methods := same.map Prod.fst
  rw [List.map_map] at methods
  have left : due.map Prod.fst
      = c.methods.filter fun m => m.ambiguous && selecting (inj.aimedAt bases mode c) m ≠ [] := by
    conv_rhs => rw [← List.zipIdx_map_fst 0 c.methods, List.filter_map]
    rfl
  rw [left] at methods
  exact methods

theorem reports_selectFor :
  (inj.selectFor bases mode managed).reports.Perm
    ((managed.decl.methods.filter fun m =>
        m.ambiguous && selecting (inj.aimedAt bases mode managed.decl) m ≠ []).map fun m =>
      ⟨.ambiguousMethod managed.name m.name, m.location⟩)
  := by
  have reports : (inj.selectFor bases mode managed).reports
      = ((firstOfEach (·.position) (disagreed (inj.hits bases mode managed.decl))).map
        (·.method)).map fun m => ⟨.ambiguousMethod managed.name m.name, m.location⟩ := by
    rw [List.map_map]
    rfl
  rw [reports]
  apply (perm_reported inj managed.decl).map

/-! ### Annotated injectors -/

/-- The injector after its interceptors have been tried on its classes. -/
def annotated (bases : Bases) (mode : NamespaceMode) (inj : Injector) : Injector :=
  { inj with classes := inj.classes.map fun c => (inj.selectFor bases mode c).value }

theorem value_annotate {matcher : Matcher} (sound : matcher.Sound bases mode) :
  (inj.annotate.run matcher).value.1 = inj.annotated bases mode
  := by
  rw [(inj.comesTo_annotate matcher sound).1, annotated, ← Reported.value_mapM]
  rfl

theorem reports_annotate {matcher : Matcher} (sound : matcher.Sound bases mode) :
  (inj.annotate.run matcher).reports
    = inj.classes.flatMap fun c => (inj.selectFor bases mode c).reports
  := by
  rw [(inj.comesTo_annotate matcher sound).2.1, Reported.reports_bind, Reported.reports_mapM,
    Reported.reports_pure, List.append_nil]

/-- Trying the interceptors again changes nothing. -/
theorem annotated_annotated (bases : Bases) (mode : NamespaceMode) (inj : Injector) :
  (inj.annotated bases mode).annotated bases mode = inj.annotated bases mode
  := by
  have classes : ((inj.annotated bases mode).annotated bases mode).classes
      = (inj.annotated bases mode).classes := by
    rw [annotated, annotated, List.map_map]
    apply List.map_congr_left
    intro c _
    exact c.noted_noted (inj.hits bases mode c.decl)
  exact congrArg (fun classes => ({ inj with classes } : Injector)) classes

end Injector

namespace Catalog

open Injector

/-- Whatever a matcher has been asked before, it answers like a new one. So on every method of an
injector exactly the interceptors are recorded that a new matcher, asked about nothing else, lets select
the class and the method, in increasing order, and none if the method is ambiguous. A class is
intercepted exactly if something is recorded on it; every ambiguous method that an interceptor would
select is reported once; and annotating again leaves the injector as it is. -/
theorem annotated_exactly [Dialect] (options : Options) (declarations : List Declaration)
    (entry : EntryPoint) (mode : NamespaceMode) (questions later : List Matcher.Question) :
  let catalog := (Registry.addAll options {} declarations >>= Registry.close).value
  let inj := ofEntry catalog options entry
  let fresh : Matcher := { bases := catalog.bases, mode }
  let used := questions.foldl Matcher.ask fresh
  let accepting (c : ClassDecl) (m : MethodDecl) :=
    (List.range inj.interceptors.length).filter fun place => inj.interceptors[place]?.any fun i =>
      (fresh.selectsClass i.interceptor.classSelector c).1
        && (fresh.selectsMethod i.interceptor.methodSelector m).1
  let run := inj.annotate.run used
  let annotated := run.value.1
  (∀ s c, (used.selectsClass s c).1 = (fresh.selectsClass s c).1)
    ∧ (∀ s m, (used.selectsMethod s m).1 = (fresh.selectsMethod s m).1)
    ∧ annotated = { inj with classes := annotated.classes }
    ∧ annotated.classes.map (·.decl) = catalog.classes
    ∧ (∀ c ∈ annotated.classes,
      c.selected = (c.decl.methods.map fun m => if m.ambiguous then [] else accepting c.decl m)
        ∧ (c.isIntercepted = true ↔ ∃ places ∈ c.selected, places ≠ []))
    ∧ run.reports.Perm (catalog.classes.flatMap fun c =>
      (c.methods.filter fun m => m.ambiguous && accepting c m ≠ []).map fun m =>
        ⟨.ambiguousMethod c.name m.name, m.location⟩)
    ∧ (annotated.annotate.run (later.foldl Matcher.ask run.value.2)).value.1 = annotated
    ∧ (annotated.annotate.run (later.foldl Matcher.ask fresh)).value.1 = annotated
  := by
  intro catalog inj fresh used accepting run annotated
  have new := Matcher.sound_new catalog.bases mode
  have sound : used.Sound catalog.bases mode := new.foldl_ask questions
  have after : run.value.2.Sound catalog.bases mode := (inj.comesTo_annotate used sound).2.2
  have annotated_eq : annotated = inj.annotated catalog.bases mode := value_annotate sound
  have again {matcher : Matcher} (sound : matcher.Sound catalog.bases mode) :
      (annotated.annotate.run matcher).value.1 = annotated := by
    rw [value_annotate sound, annotated_eq, annotated_annotated]
  have accepting_eq (c : ClassDecl) (m : MethodDecl) :
      selecting (inj.aimedAt catalog.bases mode c) m = accepting c m := by
    simp only [selecting_eq, accepting, fresh, fun s c => (new.selectsClass s c).1,
      fun s m => (new.selectsMethod s m).1]
  let plain := plainClass (scopesAsked inj.bindings)
  have classes : inj.classes = catalog.classes.map plain := rfl
  refine ⟨?_, ?_, ?_, ?_, ?_, ?_, again (after.foldl_ask later), again (new.foldl_ask later)⟩
  · intro s c
    rw [(sound.selectsClass s c).1, (new.selectsClass s c).1]
  · intro s m
    rw [(sound.selectsMethod s m).1, (new.selectsMethod s m).1]
  · rw [annotated_eq, Injector.annotated]
  · rw [annotated_eq, Injector.annotated, classes, List.map_map, List.map_map]
    exact List.map_id _
  · intro c member
    rw [annotated_eq, Injector.annotated, classes, List.map_map] at member
    obtain ⟨decl, -, rfl⟩ := List.mem_map.mp member
    have selected : (inj.selectFor catalog.bases mode (plain decl)).value.selected
        = decl.methods.map fun m => if m.ambiguous then [] else accepting decl m := by
      simp only [← accepting_eq]
      exact selected_selectFor rfl
    use selected
    rw [Function.comp_apply, isIntercepted_selectFor rfl, agreed_hits_ne_nil_iff, selected]
    simp only [← accepting_eq, List.mem_map, exists_exists_and_eq_and]
    rfl
  · have reports : run.reports = catalog.classes.flatMap fun c =>
        (inj.selectFor catalog.bases mode (plain c)).reports := by
      rw [reports_annotate sound, classes, List.flatMap_map]
    rw [reports]
    apply List.Perm.flatMap_left
    intro c _
    simp only [← accepting_eq]
    exact reports_selectFor

end Catalog

end Wiring
