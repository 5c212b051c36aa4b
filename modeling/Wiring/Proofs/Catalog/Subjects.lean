import Wiring.Catalog.Registry
import Wiring.Proofs.Diagnostic.Reported

/-!
# What registration reports

Every problem is one of a certain sort (`Problem.subject`), and a declaration has nothing reported but
of its own sorts (`Registry.about_add`). So the diagnostics of one sort can be followed through
registration without regard to the declarations of others (`Reported.About.filter_eq_nil`).
-/

namespace Wiring

/-- What a problem is a problem of. -/
inductive Subject where
  | constructor
  | method
  | setter
  | binding
  | interceptor
  | moduleList
  /-- A dependency that is resolved, after registration. -/
  | dependency
deriving DecidableEq

/-- What the problem is a problem of. -/
def Problem.subject : Problem → Subject
  | .ambiguousConstructor _ => .constructor
  | .ambiguousMethod .. => .method
  | .ambiguousBinding .. => .binding
  | .scopeWithoutClass .. => .binding
  | .invalidSource _ => .binding
  | .emptySelectorArgument _ => .interceptor
  | .missingInterceptorBody _ => .interceptor
  | .undeclaredClass .. => .method
  | .setterNotFound .. => .setter
  | .emptyModuleList _ => .moduleList
  | .unknownModule .. => .moduleList
  | .bindingNotFound _ => .dependency
  | .bindingNotProvider _ => .dependency
  | .classNotFound _ => .dependency
  | .cyclicBinding _ => .dependency

theorem Binding.subject_of_fault? {b : Binding} {problem : Problem} (h : b.fault? = some problem) :
  problem.subject = .binding
  := by
  unfold fault? at h
  split at h
  · obtain rfl := Option.some.inj h
    rfl
  · split at h
    · obtain rfl := Option.some.inj h
      rfl
    · cases h

theorem Interceptor.subject_of_fault? {i : Interceptor} {problem : Problem}
    (h : i.fault? = some problem) :
  problem.subject = .interceptor
  := by
  unfold fault? at h
  split at h
  · obtain rfl := Option.some.inj h
    rfl
  · split at h
    · obtain rfl := Option.some.inj h
      rfl
    · split at h
      · obtain rfl := Option.some.inj h
        rfl
      · cases h

namespace Reported

variable {α β : Type} {subjects more : List Subject}

/-- All that is reported is of these sorts. -/
def About (subjects : List Subject) (x : Reported α) : Prop :=
  ∀ d ∈ x.reports, d.problem.subject ∈ subjects

theorem About.filter_eq_nil {x : Reported α} (h : x.About subjects) {test : Diagnostic → Bool}
    (others : ∀ d, test d = true → d.problem.subject ∉ subjects) :
  x.reports.filter test = []
  := by
  apply List.filter_eq_nil_iff.mpr
  intro d hd passes
  exact others d passes (h d hd)

theorem about_of_silent {x : Reported α} (h : x.reports = []) :
  x.About subjects
  := by
  simp [About, h]

theorem about_one {problem : Problem} (h : problem.subject ∈ subjects) (location : Location) :
  (one problem location).About subjects
  := by
  intro d hd
  obtain rfl := List.mem_singleton.mp hd
  exact h

theorem About.append {x : Reported α} {f : α → Reported β} (h : x.About subjects)
    (h' : (f x.value).About more) :
  (x >>= f).About (subjects ++ more)
  := by
  intro d hd
  obtain hd | hd := List.mem_append.mp hd
  · exact List.mem_append_left _ (h d hd)
  · exact List.mem_append_right _ (h' d hd)

theorem About.bind {x : Reported α} {f : α → Reported β} (h : x.About subjects)
    (h' : (f x.value).About subjects) :
  (x >>= f).About subjects
  := by
  intro d hd
  obtain hd | hd := List.mem_append.mp hd
  · exact h d hd
  · exact h' d hd

theorem about_foldlM {step : β → α → Reported β} (h : ∀ b a, (step b a).About subjects)
    (xs : List α) (b : β) :
  (xs.foldlM step b).About subjects
  := by
  induction xs generalizing b with
  | nil => exact about_of_silent rfl
  | cons x xs ih =>
      rw [List.foldlM_cons]
      exact (h b x).bind (ih _)

theorem about_mapM {f : α → Reported β} (h : ∀ a, (f a).About subjects) (xs : List α) :
  (xs.mapM f).About subjects
  := by
  intro d hd
  rw [reports_mapM] at hd
  obtain ⟨x, -, hx⟩ := List.mem_flatMap.mp hd
  exact h x d hx

end Reported

open Reported

/-! ### Modules -/

namespace OpenModule

theorem about_addBinding (m : OpenModule) (b : Binding) :
  (m.addBinding b).About [.binding]
  := by
  unfold addBinding
  dsimp only
  split
  · next problem fault =>
      have subject : problem.subject ∈ [.binding] :=
        List.mem_singleton.mpr (Binding.subject_of_fault? fault)
      exact (about_one subject _).bind (about_of_silent rfl)
  · split
    · exact about_of_silent rfl
    · split
      · exact about_of_silent rfl
      · split
        · exact about_of_silent rfl
        · exact (about_one List.mem_cons_self _).bind (about_of_silent rfl)

theorem about_addInterceptor (stem : String) (m : OpenModule) (i : Interceptor) :
  (m.addInterceptor stem i).About [.interceptor]
  := by
  unfold addInterceptor
  dsimp only
  split
  · next problem fault =>
      have subject : problem.subject ∈ [.interceptor] :=
        List.mem_singleton.mpr (Interceptor.subject_of_fault? fault)
      exact (about_one subject _).bind (about_of_silent rfl)
  · exact about_of_silent rfl

theorem about_extend (stem : String) (m : OpenModule) (decl : BindingModule) :
  (m.extend stem decl).About [.binding, .interceptor]
  :=
  (about_foldlM about_addBinding decl.bindings m).append
    (about_foldlM (about_addInterceptor stem) decl.interceptors _)

end OpenModule

namespace Registry

variable (r : Registry)

theorem about_addModule (options : Options) (decl : BindingModule) :
  (r.addModule options decl).About [.binding, .interceptor]
  := (OpenModule.about_extend _ _ decl).bind (about_of_silent rfl)

/-! ### Classes -/

theorem about_addMethod (className : String) (m : MethodDecl) :
  (r.addMethod className m).About [.method]
  := by
  unfold addMethod
  split
  · exact about_of_silent rfl
  · exact (about_one List.mem_cons_self _).bind (about_of_silent rfl)

theorem about_addConstructor (c : ClassDecl) :
  (r.addConstructor c).About [.constructor]
  := by
  unfold addConstructor
  split
  · exact about_of_silent rfl
  · dsimp only
    split
    · exact (about_one List.mem_cons_self _).bind (about_of_silent rfl)
    · exact about_of_silent rfl

theorem about_methods (c : ClassDecl) :
  (c.methods.foldlM (fun (r : Registry) m => r.addMethod c.name m) r).About [.method]
  := about_foldlM (fun r => about_addMethod r c.name) c.methods r

theorem about_addClass (c : ClassDecl) :
  (r.addClass c).About [.constructor, .method]
  := (r.about_addConstructor c).append (about_methods _ c)

/-! ### Entry points and the end of registration -/

theorem about_addEntry (e : EntryPoint) :
  (r.addEntry e).About [.moduleList]
  := by
  unfold addEntry
  dsimp only
  split
  · exact (about_one List.mem_cons_self _).bind (about_of_silent rfl)
  · exact about_of_silent rfl

theorem about_checkSetters (c : ClassDecl) :
  (checkSetters c).About [.setter]
  := by
  intro d hd
  obtain ⟨setter, -, rfl⟩ := List.mem_map.mp hd
  exact List.mem_cons_self

theorem about_checkModules (e : EntryPoint) :
  (r.checkModules e).About [.moduleList]
  := by
  intro d hd
  obtain ⟨name, -, rfl⟩ := List.mem_map.mp hd
  exact List.mem_cons_self

theorem about_close :
  r.close.About [.setter, .moduleList]
  :=
  (about_mapM about_checkSetters r.classes).append
    ((about_mapM r.about_checkModules r.entries).bind (about_of_silent rfl))

end Registry

/-- The sorts of problems that a declaration can have. -/
def Declaration.subjects : Declaration → List Subject
  | .ofClass _ => [.constructor, .method]
  | .ofMethod .. => [.method]
  | .ofModule _ => [.binding, .interceptor]
  | .ofEntry _ => [.moduleList]

/-- A declaration has nothing reported but of its own sorts. -/
theorem Registry.about_add (options : Options) (r : Registry) (d : Declaration) :
  (r.add options d).About d.subjects
  := by
  cases d with
  | ofClass decl => exact r.about_addClass decl
  | ofMethod className m => exact r.about_addMethod className m
  | ofModule decl => exact r.about_addModule options decl
  | ofEntry decl => exact r.about_addEntry decl

end Wiring
