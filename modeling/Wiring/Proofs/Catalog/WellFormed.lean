import Wiring.Catalog.Registry
import Wiring.Proofs.Diagnostic.Reported
import Mathlib.Data.List.Nodup

/-!
# Well-formed catalogs

Whatever is declared, and in whatever order, the catalog that comes of it is well formed
(`Catalog.WellFormed`): classes and modules have names of their own, and so have the methods of a
class and the keys of a module; every setter is a method; bindings and interceptors are without
fault and know their module, and interceptors are numbered; every module that an entry point lists
is declared. By its name everything is found, and nothing else (`Catalog.Indexed`).

Each declaration keeps the registry well formed (`Registry.WellFormed.add`), so any sequence of
declarations does, and closing the registry settles what could not be checked before.
-/

namespace Wiring

/-- In a list without two elements of a key, an element is found by its key. -/
theorem find?_eq_some_iff_of_nodup {α : Type} (key : α → String) {xs : List α}
    (h : (xs.map key).Nodup) (k : String) (x : α) :
  xs.find? (key · = k) = some x ↔ x ∈ xs ∧ key x = k
  := by
  constructor
  · intro found
    use List.mem_of_find?_eq_some found
    simpa using List.find?_some found
  · rintro ⟨member, rfl⟩
    cases found : xs.find? (key · = key x) with
    | none => simpa using List.find?_eq_none.mp found x member
    | some y =>
        have eq : key y = key x := by simpa using List.find?_some found
        rw [List.inj_on_of_nodup_map h (List.mem_of_find?_eq_some found) member eq]

/-- In a list without two elements of a key, an element has its place by its key. -/
theorem findIdx?_eq_some_iff_of_nodup {α : Type} (key : α → String) {xs : List α}
    (h : (xs.map key).Nodup) (k : String) (i : Nat) :
  xs.findIdx? (key · = k) = some i ↔ ∃ x, xs[i]? = some x ∧ key x = k
  := by
  rw [List.findIdx?_eq_some_iff_getElem]
  constructor
  · rintro ⟨bound, eq, -⟩
    use xs[i], List.getElem?_eq_getElem bound
    simpa using eq
  · rintro ⟨x, hx, rfl⟩
    obtain ⟨bound, rfl⟩ := List.getElem?_eq_some_iff.mp hx
    refine ⟨bound, by simp, fun j before => ?_⟩
    have apart := List.pairwise_iff_getElem.mp h j i (by simp; omega) (by simpa using bound) before
    simpa using apart

/-- A further element of a new key leaves the keys distinct. -/
theorem nodup_map_append_singleton {α : Type} (key : α → String) {xs : List α} {x : α}
    (h : (xs.map key).Nodup) (new : xs.find? (key · = key x) = none) :
  ((xs ++ [x]).map key).Nodup
  := by
  rw [List.map_append]
  apply h.append (List.nodup_singleton _)
  simpa using new

/-- Elements that are changed where they stand keep their keys. -/
theorem map_key_map_ite {α : Type} (key : α → String) {test : α → Prop} [DecidablePred test]
    {change : α → α} (h : ∀ x, test x → key (change x) = key x) (xs : List α) :
  (xs.map fun x => if test x then change x else x).map key = xs.map key
  := by
  rw [List.map_map]
  apply List.map_congr_left
  intro x _
  dsimp only [Function.comp_apply]
  split
  · next changed => apply h x changed
  · rfl

/-- Elements that are changed where they stand are found by their keys. -/
theorem find?_map_ite {α : Type} (key : α → String) {test : α → Prop} [DecidablePred test]
    {change : α → α} (h : ∀ x, test x → key (change x) = key x) (xs : List α) (k : String) :
  (xs.map fun x => if test x then change x else x).find? (key · = k)
    = (xs.find? (key · = k)).map fun x => if test x then change x else x
  := by
  rw [List.find?_map]
  congr 2
  funext x
  dsimp only [Function.comp_apply]
  split
  · next changed => rw [h x changed]
  · rfl

/-- Of a list without two elements of a key, what comes of the element of a key. -/
theorem flatMap_ite_of_nodup {α β : Type} (key : α → String) {xs : List α} (h : (xs.map key).Nodup)
    (k : String) (f : α → List β) :
  (xs.flatMap fun x => if key x = k then f x else []) = (xs.find? (key · = k)).toList.flatMap f
  := by
  induction xs with
  | nil => rfl
  | cons x xs ih =>
      obtain ⟨new, distinct⟩ := List.nodup_cons.mp h
      rw [List.flatMap_cons, ih distinct, List.find?_cons]
      by_cases eq : key x = k
      · have none : xs.find? (key · = k) = none := by
          apply List.find?_eq_none.mpr
          intro y member same
          apply new
          rw [eq, ← of_decide_eq_true same]
          exact List.mem_map_of_mem member
        simp [eq, none]
      · simp [eq]

/-! ### What well-formed declarations are -/

/-- The methods of the class have names of their own, and its setters are among them. -/
structure ClassDecl.WellFormed (c : ClassDecl) : Prop where
  methods : (c.methods.map (·.name)).Nodup
  setters : ∀ setter ∈ c.setters, ∃ m ∈ c.methods, m.name = setter

/-- The binding has a key and, if it is one to a class, the name of a class. Only such a binding
has a scope. -/
structure Binding.Faultless (b : Binding) : Prop where
  key : b.key ≠ ""
  className : b.className? ≠ some ""
  scope : b.scope ≠ none → b.kind = .toType

/-- The selectors of the interceptor have the arguments that they take, and it has a body. -/
structure Interceptor.Faultless (i : Interceptor) : Prop where
  classArgument : i.classSelector.argument? ≠ some ""
  methodArgument : i.methodSelector.argument? ≠ some ""
  body : ∃ letter ∈ i.body.toList, Text.isBlank letter = false

/-- The keys of the module are distinct, what it declares is faultless and its own, and its
interceptors are named by their places. -/
structure BindingModule.WellFormed (stem : String) (m : BindingModule) : Prop where
  keys : (m.bindings.map (·.key)).Nodup
  bindings : ∀ b ∈ m.bindings, b.Faultless ∧ b.owner = m.name
  interceptors : ∀ i ∈ m.interceptors, i.Faultless ∧ i.owner = m.name
  numbered : ∀ (n : Nat) (i : Interceptor), m.interceptors[n]? = some i → i.name = stem ++ toString n

/-- The declarations of the catalog are well formed and have names of their own, and its entry
points list declared modules. `stem` starts the names of interceptors. -/
structure Catalog.WellFormed (stem : String) (catalog : Catalog) : Prop where
  classNames : (catalog.classes.map (·.name)).Nodup
  moduleNames : (catalog.modules.map (·.name)).Nodup
  classes : ∀ c ∈ catalog.classes, c.WellFormed
  modules : ∀ m ∈ catalog.modules, m.WellFormed stem
  entries : ∀ e ∈ catalog.entries, ∀ name ∈ e.modules, ∃ m ∈ catalog.modules, m.name = name

/-- Each name leads to what has it. Of the entry points, whose names may repeat, the first one that
has the name is meant. -/
structure Catalog.Indexed (catalog : Catalog) : Prop where
  class?_eq : ∀ name c, catalog.class? name = some c ↔ c ∈ catalog.classes ∧ c.name = name
  classPosition?_eq : ∀ name i, catalog.classPosition? name = some i
    ↔ ∃ c : ClassDecl, catalog.classes[i]? = some c ∧ c.name = name
  module?_eq : ∀ name m, catalog.module? name = some m ↔ m ∈ catalog.modules ∧ m.name = name
  entry?_eq : ∀ name e, catalog.entry? name = some e
    ↔ e.name = name ∧ ∃ before after, catalog.entries = before ++ e :: after
      ∧ ∀ other ∈ before, other.name ≠ name
  method?_eq : ∀ c ∈ catalog.classes, ∀ name m,
    c.method? name = some m ↔ m ∈ c.methods ∧ m.name = name
  binding?_eq : ∀ m ∈ catalog.modules, ∀ key b,
    m.binding? key = some b ↔ b ∈ m.bindings ∧ b.key = key

/-- In a well-formed catalog every name leads to what has it. -/
theorem Catalog.WellFormed.indexed {stem : String} {catalog : Catalog}
    (h : catalog.WellFormed stem) :
  catalog.Indexed
  where
  class?_eq := find?_eq_some_iff_of_nodup _ h.classNames
  classPosition?_eq := findIdx?_eq_some_iff_of_nodup _ h.classNames
  module?_eq := find?_eq_some_iff_of_nodup _ h.moduleNames
  entry?_eq name e := by
    simp [Catalog.entry?, List.find?_eq_some_iff_append]
  method?_eq c member := find?_eq_some_iff_of_nodup _ (h.classes c member).methods
  binding?_eq m member := find?_eq_some_iff_of_nodup _ (h.modules m member).keys

/-! ### Classes under registration -/

namespace ClassDecl

variable (c later : ClassDecl) (m : MethodDecl)

theorem name_addMethod :
  (c.addMethod m).name = c.name
  := by
  unfold addMethod
  split
  · rfl
  · split <;> rfl

theorem nodup_methods_addMethod (h : (c.methods.map (·.name)).Nodup) :
  ((c.addMethod m).methods.map (·.name)).Nodup
  := by
  unfold addMethod
  split
  · next unknown => exact nodup_map_append_singleton _ h unknown
  · next held _ =>
      split
      · exact h
      · -- marking methods as ambiguous leaves their names
        have names : (c.methods.map fun other =>
              if other.name = m.name then { other with ambiguous := true } else other).map (·.name)
            = c.methods.map (·.name) := map_key_map_ite _ (by intros; rfl) _
        rw [names]
        exact h

theorem foldl_addSetter_eq (setters : List String) :
  (setters.foldl addSetter c).name = c.name ∧ (setters.foldl addSetter c).methods = c.methods
  := by
  induction setters generalizing c with
  | nil => exact ⟨rfl, rfl⟩
  | cons setter setters ih =>
      have one : (c.addSetter setter).name = c.name ∧ (c.addSetter setter).methods = c.methods := by
        unfold addSetter
        split <;> exact ⟨rfl, rfl⟩
      rw [List.foldl_cons, ← one.1, ← one.2]
      apply ih

theorem merge_eq :
  (c.merge later).name = c.name ∧ (c.merge later).methods = c.methods
  := by
  unfold merge
  apply foldl_addSetter_eq

end ClassDecl

/-! ### Modules under registration -/

/-- A binding in which nothing is found wrong is faultless. -/
theorem Binding.faultless_of_fault? {b : Binding} (h : b.fault? = none) :
  b.Faultless
  := by
  unfold fault? at h
  split at h
  · cases h
  · next named =>
      split at h
      · cases h
      · next unscoped =>
          push Not at named unscoped
          obtain ⟨key, className⟩ := named
          use key, className
          intro some
          apply unscoped
          rwa [Option.isSome_iff_ne_none]

/-- An interceptor in which nothing is found wrong is faultless. -/
theorem Interceptor.faultless_of_fault? {i : Interceptor} (h : i.fault? = none) :
  i.Faultless
  := by
  unfold fault? at h
  split at h
  · cases h
  · next classArgument =>
      split at h
      · cases h
      · next methodArgument =>
          split at h
          · cases h
          · next body =>
              use classArgument, methodArgument
              simpa [Text.isBlankText] using body

namespace OpenModule

variable {stem : String} (m : OpenModule)

/-- The module after a declaration is well formed and has the name that it had. -/
def Continues (stem : String) (m m' : OpenModule) : Prop :=
  m'.decl.name = m.decl.name ∧ m'.decl.WellFormed stem

/-- A module that has just been opened is well formed. -/
theorem wellFormed_empty (decl : BindingModule) :
  BindingModule.WellFormed stem { decl with bindings := [], interceptors := [] }
  where
  keys := List.nodup_nil
  bindings := by simp
  interceptors := by simp
  numbered := by simp

theorem continues_addBinding (b : Binding) (h : m.decl.WellFormed stem) :
  m.Continues stem (m.addBinding b).value
  := by
  unfold addBinding
  dsimp only
  split
  · exact ⟨rfl, h⟩
  · next faultless =>
      split
      · exact ⟨rfl, h⟩
      · split
        · next unbound =>
            refine ⟨rfl, { h with keys := ?_, bindings := ?_ }⟩
            · exact nodup_map_append_singleton _ h.keys unbound
            · intro other member
              obtain member | member := List.mem_append.mp member
              · apply h.bindings other member
              · obtain rfl := List.mem_singleton.mp member
                exact ⟨Binding.faultless_of_fault? faultless, rfl⟩
        · split
          · exact ⟨rfl, h⟩
          · -- a key that is left out leaves the others as they are
            refine ⟨rfl, { h with keys := ?_, bindings := ?_ }⟩
            · exact h.keys.sublist (List.filter_sublist.map _)
            · intro other member
              apply h.bindings other (List.mem_of_mem_filter member)

theorem continues_addInterceptor (i : Interceptor) (h : m.decl.WellFormed stem) :
  m.Continues stem (m.addInterceptor stem i).value
  := by
  unfold addInterceptor
  dsimp only
  split
  · exact ⟨rfl, h⟩
  · next faultless =>
      refine ⟨rfl, { h with interceptors := ?_, numbered := ?_ }⟩
      · intro other member
        obtain member | member := List.mem_append.mp member
        · apply h.interceptors other member
        · obtain rfl := List.mem_singleton.mp member
          obtain ⟨classArgument, methodArgument, body⟩ := Interceptor.faultless_of_fault? faultless
          exact ⟨⟨classArgument, methodArgument, body⟩, rfl⟩
      · intro n other place
        obtain before | after := Nat.lt_or_ge n m.decl.interceptors.length
        · rw [List.getElem?_append_left before] at place
          apply h.numbered n other place
        · -- the place of the new interceptor is the number of those before it
          rw [List.getElem?_append_right after] at place
          obtain ⟨bound, rfl⟩ := List.getElem?_eq_some_iff.mp place
          have last : n = m.decl.interceptors.length := by
            simp only [List.length_singleton] at bound
            omega
          simp [last]

theorem continues_extend (decl : BindingModule) (h : m.decl.WellFormed stem) :
  m.Continues stem (m.extend stem decl).value
  := by
  unfold extend
  rw [Reported.value_bind]
  apply Reported.foldlM_keeps
  · rintro m' i ⟨name, wellFormed⟩
    obtain ⟨name', wellFormed'⟩ := m'.continues_addInterceptor i wellFormed
    exact ⟨name'.trans name, wellFormed'⟩
  · apply Reported.foldlM_keeps
    · rintro m' b ⟨name, wellFormed⟩
      obtain ⟨name', wellFormed'⟩ := m'.continues_addBinding b wellFormed
      exact ⟨name'.trans name, wellFormed'⟩
    · exact ⟨rfl, h⟩

end OpenModule

/-! ### Registries -/

/-- The registry is well formed as far as this can be checked before its end. -/
structure Registry.WellFormed (stem : String) (r : Registry) : Prop where
  classNames : (r.classes.map (·.name)).Nodup
  moduleNames : (r.modules.map (·.decl.name)).Nodup
  classes : ∀ c ∈ r.classes, (c.methods.map (·.name)).Nodup
  modules : ∀ m ∈ r.modules, m.decl.WellFormed stem

namespace Registry.WellFormed

variable {stem : String} {r : Registry}

theorem empty (stem : String) :
  Registry.WellFormed stem {}
  where
  classNames := List.nodup_nil
  moduleNames := List.nodup_nil
  classes := by simp
  modules := by simp

/-- A class may change, as long as it keeps its name and has methods of distinct names. -/
theorem updateClass (h : r.WellFormed stem) (name : String) {change : ClassDecl → ClassDecl}
    (names : ∀ c, (change c).name = c.name)
    (methods : ∀ c, (c.methods.map (·.name)).Nodup → ((change c).methods.map (·.name)).Nodup) :
  (r.updateClass name change).WellFormed stem
  where
  classNames := by
    have same : (r.updateClass name change).classes.map (·.name) = r.classes.map (·.name) :=
      map_key_map_ite _ (fun c _ => names c) _
    rw [same]
    exact h.classNames
  moduleNames := h.moduleNames
  classes := by
    intro c member
    obtain ⟨held, member', rfl⟩ := List.mem_map.mp member
    split
    · apply methods held (h.classes held member')
    · apply h.classes held member'
  modules := h.modules

theorem addMethod (h : r.WellFormed stem) (className : String) (m : MethodDecl) :
  (r.addMethod className m).value.WellFormed stem
  := by
  unfold Registry.addMethod
  split
  · apply h.updateClass className
    · intro c
      apply c.name_addMethod
    · intro c
      apply c.nodup_methods_addMethod
  · exact h

theorem addConstructor (h : r.WellFormed stem) (c : ClassDecl) :
  (r.addConstructor c).value.WellFormed stem
  := by
  unfold Registry.addConstructor
  split
  · next unknown =>
      refine { h with classNames := ?_, classes := ?_ }
      · exact nodup_map_append_singleton _ h.classNames unknown
      · intro other member
        obtain member | member := List.mem_append.mp member
        · apply h.classes other member
        · obtain rfl := List.mem_singleton.mp member
          apply List.nodup_nil
  · have merged : (r.updateClass c.name (·.merge c)).WellFormed stem := by
      apply h.updateClass c.name
      · intro held
        apply (held.merge_eq c).1
      · intro held methods
        rwa [(held.merge_eq c).2]
    -- whether there is something to report or not
    split <;> exact merged

theorem addClass (h : r.WellFormed stem) (c : ClassDecl) :
  (r.addClass c).value.WellFormed stem
  := by
  unfold Registry.addClass
  rw [Reported.value_bind]
  apply Reported.foldlM_keeps
  · intro r' m h'
    apply h'.addMethod
  · apply h.addConstructor

theorem putModule (h : r.WellFormed stem) {m : OpenModule} (wellFormed : m.decl.WellFormed stem) :
  (r.putModule m).WellFormed stem
  := by
  unfold Registry.putModule
  split
  · refine { h with moduleNames := ?_, modules := ?_ }
    · have same : (r.modules.map fun held => if held.decl.name = m.decl.name then m else held).map
            (·.decl.name)
          = r.modules.map (·.decl.name) := map_key_map_ite _ (fun _ eq => eq.symm) _
      rw [same]
      exact h.moduleNames
    · intro held member
      obtain ⟨old, member', rfl⟩ := List.mem_map.mp member
      split
      · exact wellFormed
      · apply h.modules old member'
  · next unknown =>
      refine { h with moduleNames := ?_, modules := ?_ }
      · exact nodup_map_append_singleton _ h.moduleNames unknown
      · intro held member
        obtain member | member := List.mem_append.mp member
        · apply h.modules held member
        · obtain rfl := List.mem_singleton.mp member
          exact wellFormed

theorem addModule {options : Options} (h : r.WellFormed options.interceptorPrefix)
    (decl : BindingModule) :
  (r.addModule options decl).value.WellFormed options.interceptorPrefix
  := by
  have held : ((r.module? decl.name).getD
      { decl := { decl with bindings := [], interceptors := [] } }).decl.WellFormed
        options.interceptorPrefix := by
    cases found : r.module? decl.name with
    | none => apply OpenModule.wellFormed_empty
    | some m => apply h.modules m (List.mem_of_find?_eq_some found)
  apply h.putModule
  apply (OpenModule.continues_extend _ decl held).2

/-- One more declaration keeps the registry well formed. -/
theorem add {options : Options} (h : r.WellFormed options.interceptorPrefix) (d : Declaration) :
  (r.add options d).value.WellFormed options.interceptorPrefix
  := by
  cases d with
  | ofClass decl => apply h.addClass
  | ofMethod className decl => apply h.addMethod
  | ofModule decl => apply h.addModule
  | ofEntry decl =>
      -- entry points are checked at the end only
      have same : ({ r with entries := r.entries ++ [decl] } : Registry).WellFormed
          options.interceptorPrefix := { h with }
      unfold Registry.add Registry.addEntry
      dsimp only
      split <;> exact same

/-- Any sequence of declarations keeps the registry well formed. -/
theorem addAll {options : Options} (h : r.WellFormed options.interceptorPrefix)
    (declarations : List Declaration) :
  (r.addAll options declarations).value.WellFormed options.interceptorPrefix
  := by
  unfold Registry.addAll
  apply Reported.foldlM_keeps _ _ h
  intro r' d h'
  apply h'.add

/-- At the end only the setters that are methods and the modules that are declared are left. -/
theorem close (h : r.WellFormed stem) :
  r.close.value.WellFormed stem
  where
  classNames := by simpa [Registry.close, Registry.checkSetters, Function.comp_def] using h.classNames
  moduleNames := by simpa [Registry.close, Function.comp_def] using h.moduleNames
  classes := by
    intro c member
    simp only [Registry.close, Reported.value_bind, Reported.value_pure, Reported.value_mapM]
      at member
    obtain ⟨held, member', rfl⟩ := List.mem_map.mp member
    use h.classes held member'
    intro setter kept
    obtain ⟨-, isMethod⟩ := List.mem_filter.mp kept
    obtain ⟨m, found⟩ := Option.isSome_iff_exists.mp isMethod
    use m, List.mem_of_find?_eq_some found
    simpa using List.find?_some found
  modules := by
    intro m member
    simp only [Registry.close, Reported.value_bind, Reported.value_pure] at member
    obtain ⟨held, member', rfl⟩ := List.mem_map.mp member
    apply h.modules held member'
  entries := by
    intro e member name listed
    simp only [Registry.close, Reported.value_bind, Reported.value_pure, Reported.value_mapM]
      at member ⊢
    obtain ⟨held, -, rfl⟩ := List.mem_map.mp member
    obtain ⟨-, isDeclared⟩ := List.mem_filter.mp listed
    obtain ⟨m, found⟩ := Option.isSome_iff_exists.mp isDeclared
    use m.decl, List.mem_map_of_mem (List.mem_of_find?_eq_some found)
    simpa using List.find?_some found

end Registry.WellFormed

namespace Catalog

/-- The catalog of any sequence of declarations is well formed, and every name in it leads to what
has it. -/
theorem wellFormed_of_declarations (options : Options) (declarations : List Declaration) :
  let catalog := (Registry.addAll options {} declarations >>= Registry.close).value
  catalog.WellFormed options.interceptorPrefix ∧ catalog.Indexed
  := by
  intro catalog
  have wellFormed : catalog.WellFormed options.interceptorPrefix := by
    apply Registry.WellFormed.close
    apply (Registry.WellFormed.empty _).addAll
  exact ⟨wellFormed, wellFormed.indexed⟩

end Catalog

end Wiring
