import Wiring.Proofs.Catalog.Subjects
import Wiring.Proofs.Catalog.WellFormed
import Wiring.Proofs.FirstOfEach

/-!
# Bindings of a module under registration

A module under registration holds at any time what is made of the faultless bindings so far: of each
key the first one, unless one of the others differs from it in its kind or its scope. Then nothing is
bound to the key any more, and the module knows that (`OpenModule.Assembles`). A further binding leaves
it so, and is reported exactly if it is the first of its key to differ
(`OpenModule.Assembles.addBinding`).
-/

namespace Wiring

/-! ### Faults -/

theorem Binding.fault?_eq_none_iff {b : Binding} :
  b.fault? = none ↔ b.Faultless
  := by
  constructor
  · apply faultless_of_fault?
  · rintro ⟨key, className, scope⟩
    have unscoped : ¬ (b.scope.isSome ∧ b.kind ≠ .toType) := by
      rintro ⟨given, kind⟩
      exact kind (scope (Option.isSome_iff_ne_none.mp given))
    rw [fault?, if_neg (not_or.mpr ⟨key, className⟩), if_neg unscoped]

theorem Interceptor.fault?_eq_none_iff {i : Interceptor} :
  i.fault? = none ↔ i.Faultless
  := by
  constructor
  · apply faultless_of_fault?
  · rintro ⟨classArgument, methodArgument, letter, member, notBlank⟩
    have body : ¬ Text.isBlankText i.body = true := by
      simp only [Text.isBlankText, List.all_eq_true, not_forall]
      exact ⟨letter, member, by simp [notBlank]⟩
    rw [fault?, if_neg classArgument, if_neg methodArgument, if_neg body]

instance : DecidablePred Binding.Faultless :=
  fun _ => decidable_of_iff _ Binding.fault?_eq_none_iff

instance : DecidablePred Interceptor.Faultless :=
  fun _ => decidable_of_iff _ Interceptor.fault?_eq_none_iff

/-- What is reported of a binding that is not faultless. -/
def Binding.complaint (b : Binding) : Diagnostic where
  problem :=
    if b.key = "" ∨ b.className? = some "" then .invalidSource b.key
    else .scopeWithoutClass b.key b.kind
  location := b.location

/-- The problem is a fault of a binding. -/
def Problem.isBindingFault : Problem → Bool
  | .invalidSource _ => true
  | .scopeWithoutClass .. => true
  | _ => false

theorem Binding.isBindingFault_complaint (b : Binding) :
  b.complaint.problem.isBindingFault = true
  := by
  unfold complaint
  dsimp only
  split <;> rfl

theorem Binding.fault?_of_not_faultless {b : Binding} (h : ¬ b.Faultless) :
  b.fault? = some b.complaint.problem
  := by
  rw [← fault?_eq_none_iff] at h
  unfold fault? at h ⊢
  unfold complaint
  dsimp only
  split
  · rfl
  · split
    · rfl
    · simp_all

/-- A fault of a binding has nothing to do with its module. -/
theorem Binding.fault?_owned (b : Binding) (owner : String) :
  ({ b with owner } : Binding).fault? = b.fault?
  := rfl

/-! ### Bindings of one key -/

/-- What bindings of one key have to agree on. -/
def Binding.terms (b : Binding) : SourceKind × Scope :=
  (b.kind, b.scopeGiven)

theorem Binding.agrees_iff {a b : Binding} :
  a.agrees b = true ↔ a.key = b.key ∧ a.terms = b.terms
  := by
  simp [agrees, terms, and_assoc]

/-- The bindings of the key are of one kind and give one scope. -/
def AgreeOn (bindings : List Binding) (key : String) : Prop :=
  ∀ a ∈ bindings, ∀ b ∈ bindings, a.key = key → b.key = key → a.terms = b.terms

instance (bindings : List Binding) (key : String) : Decidable (AgreeOn bindings key) :=
  inferInstanceAs (Decidable (∀ a ∈ bindings, ∀ b ∈ bindings, a.key = key → b.key = key →
    a.terms = b.terms))

/-- The first binding of the key that differs in its kind or its scope from the first one. -/
def dissenter? (bindings : List Binding) (key : String) : Option Binding :=
  (bindings.find? (·.key = key)).bind fun first =>
    bindings.find? fun b => b.key = key ∧ b.terms ≠ first.terms

/-- Of each key whose bindings agree the first one. -/
def settled (bindings : List Binding) : List Binding :=
  (firstOfEach (·.key) bindings).filter fun b => AgreeOn bindings b.key

section

variable {bindings : List Binding} {b : Binding} {key : String}

/-- All agree if they agree with the first one. -/
theorem agreeOn_iff_of_first {first : Binding} (found : bindings.find? (·.key = key) = some first) :
  AgreeOn bindings key ↔ ∀ b ∈ bindings, b.key = key → b.terms = first.terms
  := by
  have bound : first.key = key := by simpa using List.find?_some found
  constructor
  · intro agree b hb eq
    exact agree b hb first (List.mem_of_find?_eq_some found) eq bound
  · intro agree a ha b hb keyA keyB
    rw [agree a ha keyA, agree b hb keyB]

theorem agreeOn_of_unbound (unbound : bindings.find? (·.key = key) = none) :
  AgreeOn bindings key
  := by
  have others : ∀ a ∈ bindings, a.key ≠ key := by simpa using unbound
  intro a ha b _ eq
  exact absurd eq (others a ha)

theorem dissenter?_eq_none_iff :
  dissenter? bindings key = none ↔ AgreeOn bindings key
  := by
  unfold dissenter?
  cases found : bindings.find? (·.key = key) with
  | none => simp [agreeOn_of_unbound found]
  | some first => simp [agreeOn_iff_of_first found]

/-- A further binding has to agree with the first one of its key. -/
theorem agreeOn_concat_iff :
  AgreeOn (bindings ++ [b]) key
    ↔ AgreeOn bindings key ∧ (b.key = key → ∀ first ∈ bindings.find? (·.key = key),
      b.terms = first.terms)
  := by
  cases found : bindings.find? (·.key = key) with
  | none =>
      have others : ∀ a ∈ bindings, a.key ≠ key := by simpa using found
      simp only [agreeOn_of_unbound found, Option.not_mem_none, false_imp_iff, implies_true,
        and_true, iff_true]
      intro a ha c hc keyA keyC
      have last : ∀ a ∈ bindings ++ [b], a.key = key → a = b := by
        intro a ha eq
        obtain ha | ha := List.mem_append.mp ha
        · exact absurd eq (others a ha)
        · exact List.mem_singleton.mp ha
      rw [last a ha keyA, last c hc keyC]
  | some first =>
      have found' : (bindings ++ [b]).find? (·.key = key) = some first := by
        rw [List.find?_append, found, Option.some_or]
      rw [agreeOn_iff_of_first found', agreeOn_iff_of_first found]
      simp [or_imp, forall_and]

theorem agreeOn_concat_of_ne (ne : b.key ≠ key) :
  AgreeOn (bindings ++ [b]) key ↔ AgreeOn bindings key
  := by
  simp [agreeOn_concat_iff, ne]

/-- The binding is the first of its key to differ from the first one. -/
def Dissents (bindings : List Binding) (b : Binding) : Prop :=
  AgreeOn bindings b.key ∧ ¬ AgreeOn (bindings ++ [b]) b.key

instance : Decidable (Dissents bindings b) :=
  inferInstanceAs (Decidable (_ ∧ _))

/-- A binding that is not the first to differ is of no consequence for any key. -/
theorem agreeOn_concat_of_consents (consents : ¬ Dissents bindings b) :
  AgreeOn (bindings ++ [b]) key ↔ AgreeOn bindings key
  := by
  by_cases same : b.key = key
  · subst same
    constructor
    · intro agree
      exact (agreeOn_concat_iff.mp agree).1
    · intro agree
      by_contra clash
      exact consents ⟨agree, clash⟩
  · apply agreeOn_concat_of_ne same

/-- The first binding that differs stays the first one. -/
theorem dissenter?_concat :
  dissenter? (bindings ++ [b]) key
    = (dissenter? bindings key).or (if b.key = key ∧ Dissents bindings b then some b else none)
  := by
  by_cases same : b.key = key
  · subst same
    cases found : bindings.find? (·.key = b.key) with
    | none =>
        have agree : AgreeOn (bindings ++ [b]) b.key := by
          simp [agreeOn_concat_iff, found, agreeOn_of_unbound found]
        rw [dissenter?_eq_none_iff.mpr agree, dissenter?_eq_none_iff.mpr (agreeOn_of_unbound found)]
        simp [Dissents, agree]
    | some first =>
        have before : dissenter? bindings b.key
            = bindings.find? fun c => c.key = b.key ∧ c.terms ≠ first.terms := by
          rw [dissenter?, found, Option.bind_some]
        have after : dissenter? (bindings ++ [b]) b.key
            = (dissenter? bindings b.key).or (if b.terms ≠ first.terms then some b else none) := by
          rw [dissenter?, List.find?_append, found, Option.some_or, Option.bind_some,
            List.find?_append, before]
          simp [List.find?_singleton]
        rw [after]
        cases none : dissenter? bindings b.key with
        | some other => rfl
        | none =>
            have agree := dissenter?_eq_none_iff.mp none
            simp [Dissents, agreeOn_concat_iff, agree, found]
  · have others : [b].find? (fun c => decide (c.key = key)) = none := by simp [same]
    rw [dissenter?, List.find?_append, others, Option.or_none, dissenter?]
    cases bindings.find? (·.key = key) with
    | none => simp [same]
    | some first => simp [List.find?_append, same]

/-- The first binding of a key stands if all agree. -/
theorem find?_settled :
  (settled bindings).find? (·.key = key)
    = if AgreeOn bindings key then bindings.find? (·.key = key) else none
  := by
  rw [settled, List.find?_filter, ← find?_firstOfEach]
  split
  · next agree =>
      congr
      funext b
      by_cases same : b.key = key <;> simp [same, agree]
  · next dissent =>
      apply List.find?_eq_none.mpr
      intro b _ kept
      simp only [decide_eq_true_eq] at kept
      obtain ⟨agree, rfl⟩ := kept
      exact dissent agree

/-- A binding of a new key is added. -/
theorem settled_concat_of_new (new : bindings.find? (·.key = b.key) = none) :
  settled (bindings ++ [b]) = settled bindings ++ [b]
  := by
  have apart : ∀ a ∈ bindings, a.key ≠ b.key := by simpa using new
  have unbound : b.key ∉ bindings.map (·.key) := by simpa using apart
  have alone : AgreeOn (bindings ++ [b]) b.key := by
    simp [agreeOn_concat_iff, new, agreeOn_of_unbound new]
  rw [settled, firstOfEach_concat, if_neg unbound, List.filter_append, settled]
  congr 1
  · apply List.filter_congr
    intro a ha
    have ne := (apart a (mem_of_mem_firstOfEach _ ha)).symm
    exact decide_eq_decide.mpr (agreeOn_concat_of_ne ne)
  · simp [alone]

/-- A binding of a known key adds nothing. If it is the first one to differ, what was bound to the key
is left out. -/
theorem settled_concat_of_known (known : b.key ∈ bindings.map (·.key)) :
  settled (bindings ++ [b])
    = if Dissents bindings b then (settled bindings).filter (·.key ≠ b.key) else settled bindings
  := by
  rw [settled, firstOfEach_concat, if_pos known, settled]
  split
  · next dissents =>
      rw [List.filter_filter]
      apply List.filter_congr
      intro a _
      by_cases same : a.key = b.key
      · simpa [same] using dissents.2
      · simpa [same] using agreeOn_concat_of_ne (Ne.symm same)
  · next consents =>
      apply List.filter_congr
      intro a _
      exact decide_eq_decide.mpr (agreeOn_concat_of_consents consents)

end

/-! ### Modules under registration -/

/-- The module that has the name, the set-up method and the location of a declaration, and is made of
faultless bindings and interceptors, the latter numbered behind `stem`. -/
def assembled (stem : String) (first : BindingModule) (bindings : List Binding)
    (interceptors : List Interceptor) : BindingModule :=
  { name := first.name
    bindings := (settled bindings).map fun b => { b with owner := first.name }
    interceptors := interceptors.mapIdx fun n i =>
      { i with owner := first.name, name := stem ++ toString n }
    configure := first.configure
    location := first.location }

/-- The module under registration is made of these bindings and interceptors. -/
structure OpenModule.Assembles (stem : String) (first : BindingModule) (bindings : List Binding)
    (interceptors : List Interceptor) (m : OpenModule) : Prop where
  decl : m.decl = assembled stem first bindings interceptors
  ambiguous : ∀ key, key ∈ m.ambiguous ↔ ¬ AgreeOn bindings key

/-- Of the module of a name the first binding that differs from the first one of its key is reported,
and nothing else as ambiguous. -/
def Noted (name : String) (bindings : List Binding) (reports : List Diagnostic) : Prop :=
  ∀ key, reports.filter (·.problem = .ambiguousBinding name key)
    = (dissenter? bindings key).toList.map fun b => ⟨.ambiguousBinding name key, b.location⟩

theorem Noted.append {name : String} {bindings : List Binding} {reports more : List Diagnostic}
    (h : Noted name bindings reports)
    (others : ∀ key, more.filter (·.problem = .ambiguousBinding name key) = []) :
  Noted name bindings (reports ++ more)
  := by
  intro key
  rw [List.filter_append, others, List.append_nil, h key]

/-- A fault of a binding is not an ambiguity. -/
theorem filter_complaint (b : Binding) (name key : String) :
  [b.complaint].filter (·.problem = .ambiguousBinding name key) = []
  := by
  have fault := b.isBindingFault_complaint
  apply List.filter_eq_nil_iff.mpr
  intro d hd same
  rw [← List.mem_singleton.mp hd, of_decide_eq_true same] at fault
  cases fault

/-- The first binding that differs is reported when it comes. -/
theorem Noted.concat {name : String} {bindings : List Binding} {reports : List Diagnostic}
    (h : Noted name bindings reports) (b : Binding) :
  Noted name (bindings ++ [b]) (reports
    ++ if Dissents bindings b then [⟨.ambiguousBinding name b.key, b.location⟩] else [])
  := by
  intro key
  rw [List.filter_append, h key, dissenter?_concat]
  by_cases dissents : Dissents bindings b
  · by_cases same : b.key = key
    · subst same
      simp [dissents, dissenter?_eq_none_iff.mpr dissents.1]
    · simp [dissents, same]
  · simp [dissents]

namespace OpenModule

variable {stem : String} {first : BindingModule} {bindings : List Binding}
  {interceptors : List Interceptor} {m : OpenModule} {reports : List Diagnostic}

theorem assembles_empty (decl : BindingModule) :
  Assembles stem decl [] [] { decl := { decl with bindings := [], interceptors := [] } }
  where
  decl := rfl
  ambiguous key := by simp [AgreeOn]

/-- What is bound to a key under registration. -/
theorem Assembles.binding?_eq (h : m.Assembles stem first bindings interceptors) (key : String) :
  m.decl.binding? key
    = if AgreeOn bindings key then
        (bindings.find? (·.key = key)).map fun b => { b with owner := first.name }
      else none
  := by
  have eq : m.decl.binding? key
      = ((settled bindings).find? (·.key = key)).map fun b => { b with owner := first.name } := by
    rw [BindingModule.binding?, h.decl, assembled, List.find?_map]
    rfl
  rw [eq, find?_settled]
  split <;> rfl

theorem addBinding_of_faulty {b : Binding} (faulty : ¬ b.Faultless) :
  m.addBinding b = { value := m, reports := [b.complaint] }
  := by
  rw [addBinding, b.fault?_owned, Binding.fault?_of_not_faultless faulty]
  rfl

/-- A further binding of a known key that is not the first to differ leaves the module as it is. -/
theorem Assembles.of_consents (h : m.Assembles stem first bindings interceptors) {b : Binding}
    (known : b.key ∈ bindings.map (·.key)) (consents : ¬ Dissents bindings b) :
  m.Assembles stem first (bindings ++ [b]) interceptors
  where
  decl := by rw [h.decl, assembled, assembled, settled_concat_of_known known, if_neg consents]
  ambiguous key := by rw [h.ambiguous, agreeOn_concat_of_consents consents]

/-- A binding that is the first of its key to differ makes the module leave the key out. -/
theorem Assembles.of_dissents (h : m.Assembles stem first bindings interceptors) {b : Binding}
    (known : b.key ∈ bindings.map (·.key)) (dissents : Dissents bindings b) :
  Assembles stem first (bindings ++ [b]) interceptors
    { decl := { m.decl with bindings := m.decl.bindings.filter (·.key ≠ b.key) }
      ambiguous := b.key :: m.ambiguous }
  where
  decl := by
    rw [h.decl, assembled, assembled, settled_concat_of_known known, if_pos dissents,
      List.filter_map]
    rfl
  ambiguous key := by
    rw [List.mem_cons, h.ambiguous]
    by_cases same : key = b.key
    · simpa [same] using dissents.2
    · simp [same, agreeOn_concat_of_ne (Ne.symm same)]

/-- A binding of a new key is bound. -/
theorem Assembles.of_new (h : m.Assembles stem first bindings interceptors) {b : Binding}
    (new : bindings.find? (·.key = b.key) = none) :
  Assembles stem first (bindings ++ [b]) interceptors
    { m with
      decl := { m.decl with bindings := m.decl.bindings ++ [{ b with owner := m.decl.name }] } }
  where
  decl := by
    rw [h.decl, assembled, assembled, settled_concat_of_new new, List.map_append, List.map_singleton]
  ambiguous key := by
    have consents : ¬ Dissents bindings b := by
      simp [Dissents, agreeOn_concat_iff, new]
    rw [h.ambiguous, agreeOn_concat_of_consents consents]

/-- A faultless binding is taken over as it has to be, and reported if it is the first of its key to
differ. -/
theorem Assembles.addBinding (h : m.Assembles stem first bindings interceptors) {b : Binding}
    (faultless : b.Faultless) :
  (m.addBinding b).value.Assembles stem first (bindings ++ [b]) interceptors
    ∧ (m.addBinding b).reports
      = if Dissents bindings b then [⟨.ambiguousBinding m.decl.name b.key, b.location⟩] else []
  := by
  unfold OpenModule.addBinding
  simp only [b.fault?_owned, Binding.fault?_eq_none_iff.mpr faultless]
  cases found : bindings.find? (·.key = b.key) with
  | none =>
      have agree := agreeOn_of_unbound found
      have consents : ¬ Dissents bindings b := by simp [Dissents, agreeOn_concat_iff, found]
      rw [if_neg (mt (h.ambiguous b.key).mp (not_not.mpr agree)), h.binding?_eq, if_pos agree, found]
      exact ⟨h.of_new found, (if_neg consents).symm⟩
  | some held =>
      have known : b.key ∈ bindings.map (·.key) := by
        apply List.mem_map.mpr
        use held, List.mem_of_find?_eq_some found
        simpa using List.find?_some found
      by_cases agree : AgreeOn bindings b.key
      · rw [if_neg (mt (h.ambiguous b.key).mp (not_not.mpr agree)), h.binding?_eq, if_pos agree,
          found]
        have bound : held.key = b.key := by simpa using List.find?_some found
        have dissents_iff : Dissents bindings b ↔ b.terms ≠ held.terms := by
          simp [Dissents, agreeOn_concat_iff, agree, found]
        have agrees : ({ held with owner := first.name } : Binding).agrees
            { b with owner := m.decl.name } = true ↔ ¬ Dissents bindings b := by
          rw [dissents_iff, not_not]
          exact (Binding.agrees_iff.trans (and_iff_right bound)).trans eq_comm
        dsimp only [Option.map_some]
        by_cases dissents : Dissents bindings b
        · rw [if_neg (mt agrees.mp (not_not.mpr dissents)), if_pos dissents]
          exact ⟨h.of_dissents known dissents, rfl⟩
        · rw [if_pos (agrees.mpr dissents), if_neg dissents]
          exact ⟨h.of_consents known dissents, rfl⟩
      · rw [if_pos ((h.ambiguous b.key).mpr agree)]
        have consents : ¬ Dissents bindings b := fun dissents => agree dissents.1
        exact ⟨h.of_consents known consents, (if_neg consents).symm⟩

theorem Assembles.addInterceptor (h : m.Assembles stem first bindings interceptors)
    (i : Interceptor) :
  (m.addInterceptor stem i).value.Assembles stem first bindings
    (interceptors ++ [i].filter (·.Faultless))
  := by
  have name : m.decl.name = first.name := by rw [h.decl, assembled]
  have number : m.decl.interceptors.length = interceptors.length := by
    rw [h.decl, assembled, List.length_mapIdx]
  have own : ({ i with owner := m.decl.name } : Interceptor).Faultless ↔ i.Faultless :=
    ⟨fun ⟨classArgument, methodArgument, body⟩ => ⟨classArgument, methodArgument, body⟩,
      fun ⟨classArgument, methodArgument, body⟩ => ⟨classArgument, methodArgument, body⟩⟩
  unfold OpenModule.addInterceptor
  dsimp only
  split
  · next fault =>
      have faulty : ¬ i.Faultless := by
        rw [← own, ← Interceptor.fault?_eq_none_iff, fault]
        exact Option.some_ne_none _
      simpa [faulty] using h
  · next fault =>
      have faultless : i.Faultless := own.mp (Interceptor.fault?_eq_none_iff.mp fault)
      refine { h with decl := ?_ }
      rw [List.filter_singleton, decide_eq_true faultless, number, name, h.decl]
      simp [assembled, List.mapIdx_concat]

/-- A binding is taken over if it is faultless, and it is noted if it is the first to differ. -/
theorem Assembles.takeBinding (h : m.Assembles stem first bindings interceptors)
    (noted : Noted first.name bindings reports) (b : Binding) :
  (m.addBinding b).value.Assembles stem first (bindings ++ [b].filter (·.Faultless)) interceptors
    ∧ Noted first.name (bindings ++ [b].filter (·.Faultless)) (reports ++ (m.addBinding b).reports)
  := by
  by_cases faultless : b.Faultless
  · obtain ⟨added, reported⟩ := h.addBinding faultless
    have name : m.decl.name = first.name := by rw [h.decl, assembled]
    rw [List.filter_singleton, decide_eq_true faultless, reported, name]
    exact ⟨added, noted.concat b⟩
  · rw [List.filter_singleton, decide_eq_false faultless, addBinding_of_faulty faultless]
    simp only [cond_false, List.append_nil]
    constructor
    · exact h
    · exact noted.append (filter_complaint b first.name)

theorem Assembles.takeBindings (h : m.Assembles stem first bindings interceptors)
    (noted : Noted first.name bindings reports) (new : List Binding) :
  (new.foldlM OpenModule.addBinding m).value.Assembles stem first
      (bindings ++ new.filter (·.Faultless)) interceptors
    ∧ Noted first.name (bindings ++ new.filter (·.Faultless))
      (reports ++ (new.foldlM OpenModule.addBinding m).reports)
  := by
  induction new generalizing m bindings reports with
  | nil => simpa using ⟨h, noted⟩
  | cons b new ih =>
      obtain ⟨taken, noted⟩ := h.takeBinding noted b
      rw [List.foldlM_cons, Reported.value_bind, Reported.reports_bind, ← List.singleton_append,
        List.filter_append, ← List.append_assoc, ← List.append_assoc]
      exact ih taken noted

theorem Assembles.takeInterceptors (h : m.Assembles stem first bindings interceptors)
    (new : List Interceptor) :
  (new.foldlM (OpenModule.addInterceptor stem) m).value.Assembles stem first bindings
    (interceptors ++ new.filter (·.Faultless))
  := by
  induction new generalizing m interceptors with
  | nil => simpa using h
  | cons i new ih =>
      rw [List.foldlM_cons, Reported.value_bind, ← List.singleton_append, List.filter_append,
        ← List.append_assoc]
      exact ih (h.addInterceptor i)

theorem filter_reports_addInterceptors (m : OpenModule) (new : List Interceptor) (name key : String) :
  (new.foldlM (OpenModule.addInterceptor stem) m).reports.filter
    (·.problem = .ambiguousBinding name key) = []
  := by
  apply (Reported.about_foldlM (about_addInterceptor stem) new m).filter_eq_nil
  intro d same
  simp [of_decide_eq_true same, Problem.subject]

/-- A declaration of the module adds its bindings and interceptors to those before. -/
theorem Assembles.extend (h : m.Assembles stem first bindings interceptors)
    (noted : Noted first.name bindings reports) (decl : BindingModule) :
  (m.extend stem decl).value.Assembles stem first
      (bindings ++ decl.bindings.filter (·.Faultless))
      (interceptors ++ decl.interceptors.filter (·.Faultless))
    ∧ Noted first.name (bindings ++ decl.bindings.filter (·.Faultless))
      (reports ++ (m.extend stem decl).reports)
  := by
  obtain ⟨bound, noted⟩ := h.takeBindings noted decl.bindings
  constructor
  · exact bound.takeInterceptors decl.interceptors
  · rw [OpenModule.extend, Reported.reports_bind, ← List.append_assoc]
    exact noted.append (filter_reports_addInterceptors _ _ _)

/-- No binding is reported as ambiguous in another module. -/
theorem Assembles.filter_reports_extend (h : m.Assembles stem first bindings interceptors)
    (decl : BindingModule) {name : String} (ne : first.name ≠ name) (key : String) :
  (m.extend stem decl).reports.filter (·.problem = .ambiguousBinding name key) = []
  := by
  have bound (new : List Binding) : (new.foldlM OpenModule.addBinding m).reports.filter
      (·.problem = .ambiguousBinding name key) = [] := by
    induction new generalizing m bindings with
    | nil => rfl
    | cons b new ih =>
        rw [List.foldlM_cons, Reported.reports_bind, List.filter_append]
        by_cases faultless : b.Faultless
        · obtain ⟨added, reported⟩ := h.addBinding faultless
          have apart : m.decl.name ≠ name := by rwa [h.decl, assembled]
          rw [ih added, reported]
          split <;> simp [apart]
        · rw [addBinding_of_faulty faultless, filter_complaint, ih h, List.append_nil]
  rw [OpenModule.extend, Reported.reports_bind, List.filter_append, bound,
    filter_reports_addInterceptors, List.append_nil]

end OpenModule

end Wiring
