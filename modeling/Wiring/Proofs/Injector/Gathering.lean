import Wiring.Injector.Basic
import Wiring.Proofs.Catalog.WellFormed
import Wiring.Proofs.FirstOfEach

/-!
# Gathering of modules

The modules that an entry point lists are gone through once, and four tables grow along the way. At any
time they belong together (`Gathered.Comprises`): they are what the modules listed so far come to, each
of them once, with the first binding of each key, and a key has a place exactly if it is bound.
-/

namespace Wiring

/-! ### Tables of bindings -/

namespace BindingTable

/-- The table holds the first one of each key among the bindings, and the places of these. -/
structure Holds (bindings : List OwnedBinding) (table : BindingTable) : Prop where
  rows : table.rows = firstOfEach (·.binding.key) bindings
  place? : ∀ key, table.place? key = table.rows.findIdx? (·.binding.key = key)

variable {bindings : List OwnedBinding} {table : BindingTable}

theorem holds_empty :
  Holds [] {}
  where
  rows := rfl
  place? _ := rfl

/-- A key has a place if it has come up. -/
theorem Holds.isSome_place? (h : table.Holds bindings) (key : String) :
  (table.place? key).isSome = decide (key ∈ bindings.map (·.binding.key))
  := by
  rw [h.place?, List.findIdx?_isSome, h.rows, Bool.eq_iff_iff, decide_eq_true_eq,
    ← mem_map_firstOfEach (fun b : OwnedBinding => b.binding.key)]
  simp

/-- A further binding gets the next place, if its key is new. -/
theorem Holds.add (h : table.Holds bindings) (b : OwnedBinding) :
  (table.add b).Holds (bindings ++ [b])
  := by
  have place := h.isSome_place? b.binding.key
  unfold BindingTable.add
  rw [place]
  by_cases known : b.binding.key ∈ bindings.map (·.binding.key)
  · rw [if_pos (decide_eq_true known)]
    constructor
    · rw [firstOfEach_concat, if_pos known, h.rows]
    · exact h.place?
  · rw [if_neg (by simpa using known)]
    constructor
    · rw [firstOfEach_concat, if_neg known, h.rows]
    · intro key
      rw [BindingTable.place?, List.lookup_cons, List.findIdx?_append, ← h.place?]
      by_cases same : key = b.binding.key
      · subst same
        have none : table.place? b.binding.key = none := by simpa [known] using place
        simp [none]
      · rw [beq_eq_false_iff_ne.mpr same]
        simp [BindingTable.place?, Ne.symm same]

theorem Holds.foldl_add (h : table.Holds bindings) (more : List OwnedBinding) :
  (more.foldl BindingTable.add table).Holds (bindings ++ more)
  := by
  induction more generalizing bindings table with
  | nil => simpa using h
  | cons b more ih =>
      rw [List.append_cons]
      apply ih (h.add b)

theorem Holds.nodup (h : table.Holds bindings) :
  (table.rows.map (·.binding.key)).Nodup
  := by
  rw [h.rows]
  apply nodup_firstOfEach

/-- The place of a key is the one of the binding that has the key. -/
theorem Holds.place?_eq_some_iff (h : table.Holds bindings) {key : String} {i : Nat} :
  table.place? key = some i ↔ ∃ b, table.rows[i]? = some b ∧ b.binding.key = key
  := by
  rw [h.place?]
  exact findIdx?_eq_some_iff_of_nodup (fun b : OwnedBinding => b.binding.key) h.nodup key i

/-- The binding of a key stands at the place of the key. -/
theorem Holds.find?_rows (h : table.Holds bindings) (key : String) :
  table.rows.find? (·.binding.key = key) = (table.place? key).bind (table.rows[·]?)
  := by
  cases place : table.place? key with
  | none =>
      have unbound : table.rows.any (·.binding.key = key) = false := by
        rw [← List.findIdx?_isSome, ← h.place?, place, Option.isSome_none]
      rw [Option.bind_none, List.find?_eq_none]
      simpa using unbound
  | some i =>
      obtain ⟨b, found, eq⟩ := h.place?_eq_some_iff.mp place
      rw [Option.bind_some, found]
      exact (find?_eq_some_iff_of_nodup (fun b : OwnedBinding => b.binding.key) h.nodup key b).mpr
        ⟨List.mem_of_getElem? found, eq⟩

end BindingTable

namespace Injector

/-! ### What a list of modules comes to -/

/-- The modules that are listed, each once, in the order of their first listing. -/
def listed (catalog : Catalog) (names : List String) : List BindingModule :=
  names.eraseDups.filterMap catalog.module?

/-- The modules that an entry point lists, each once, in the order of their first listing. -/
def listedModules (catalog : Catalog) (entry : EntryPoint) : List BindingModule :=
  entry.modules.eraseDups.filterMap catalog.module?

/-- The bindings of the modules, one module after the other. -/
def declaredBindings (modules : List BindingModule) : List OwnedBinding :=
  modules.flatMap fun m => m.bindings.map fun b => ⟨b, m.handle⟩

/-- The bindings of the modules, the first one of each key. -/
def flattenBindings (modules : List BindingModule) : List OwnedBinding :=
  firstOfEach (·.binding.key) (declaredBindings modules)

/-- The interceptors of the modules, one module after the other. -/
def flattenInterceptors (modules : List BindingModule) : List OwnedInterceptor :=
  modules.flatMap fun m => m.interceptors.map fun i => ⟨i, m.handle⟩

/-- A module and its variable. -/
def moduleHandle (m : BindingModule) : ModuleHandle where
  name := m.handle
  moduleName := m.name
  configure := m.configure

variable {modules : List BindingModule} {catalog : Catalog} {entry : EntryPoint}

theorem name_of_module? {name : String} {m : BindingModule} (h : catalog.module? name = some m) :
  m.name = name
  := by
  simpa using List.find?_some h

/-- A listed module is a declared one. -/
theorem mem_modules_of_mem_listedModules {m : BindingModule} (h : m ∈ listedModules catalog entry) :
  m ∈ catalog.modules
  := by
  obtain ⟨name, -, found⟩ := List.mem_filterMap.mp h
  apply List.mem_of_find?_eq_some found

/-- No module takes part twice. -/
theorem nodup_listedModules (catalog : Catalog) (entry : EntryPoint) :
  ((listedModules catalog entry).map (·.name)).Nodup
  := by
  rw [listedModules, List.map_filterMap]
  apply List.Nodup.filterMap
  · intro a b name ha hb
    obtain ⟨m, found, rfl⟩ := Option.map_eq_some_iff.mp ha
    obtain ⟨m', found', eq⟩ := Option.map_eq_some_iff.mp hb
    rw [← name_of_module? found, ← name_of_module? found', eq]
  · apply nodup_eraseDups

/-- A binding in the table comes from a module, whose variable it has. -/
theorem exists_of_mem_flattenBindings {b : OwnedBinding} (h : b ∈ flattenBindings modules) :
  ∃ m ∈ modules, b.binding ∈ m.bindings ∧ b.handle = m.handle
  := by
  obtain ⟨m, hm, hb⟩ := List.mem_flatMap.mp (mem_of_mem_firstOfEach _ h)
  obtain ⟨declared, hdeclared, rfl⟩ := List.mem_map.mp hb
  use m, hm, hdeclared

theorem exists_of_mem_flattenInterceptors {i : OwnedInterceptor}
    (h : i ∈ flattenInterceptors modules) :
  ∃ m ∈ modules, i.interceptor ∈ m.interceptors ∧ i.handle = m.handle
  := by
  obtain ⟨m, hm, hi⟩ := List.mem_flatMap.mp h
  obtain ⟨declared, hdeclared, rfl⟩ := List.mem_map.mp hi
  use m, hm, hdeclared

end Injector

/-! ### Gathering -/

namespace Gathered

open Injector

variable {catalog : Catalog} {names : List String} {g : Gathered}

/-- What has been gathered is what the modules of the names come to. -/
structure Comprises (catalog : Catalog) (names : List String) (g : Gathered) : Prop where
  seen : ∀ name, (catalog.module? name).isSome → (name ∈ g.seen ↔ name ∈ names)
  modules : g.modules = (listed catalog names).map moduleHandle
  table : g.table.Holds (declaredBindings (listed catalog names))
  interceptors : g.interceptors = flattenInterceptors (listed catalog names)

theorem comprises_empty (catalog : Catalog) :
  Comprises catalog [] {}
  where
  seen _ _ := Iff.rfl
  modules := rfl
  table := BindingTable.holds_empty
  interceptors := rfl

theorem listed_concat (catalog : Catalog) (names : List String) (name : String) :
  listed catalog (names ++ [name])
    = if name ∈ names then listed catalog names
      else listed catalog names ++ (catalog.module? name).toList
  := by
  rw [listed, listed, eraseDups_eq_firstOfEach, eraseDups_eq_firstOfEach, firstOfEach_concat,
    List.map_id, id]
  by_cases known : name ∈ names
  · rw [if_pos known, if_pos known]
  · rw [if_neg known, if_neg known, List.filterMap_append]
    cases found : catalog.module? name <;> simp [found]

/-- One more name adds the module of that name, if there is one and it is new. -/
theorem Comprises.visit (h : g.Comprises catalog names) (name : String) :
  (g.visit catalog name).Comprises catalog (names ++ [name])
  := by
  unfold Gathered.visit
  split
  · next unknown =>
      have same : listed catalog (names ++ [name]) = listed catalog names := by
        rw [listed_concat, unknown, Option.toList_none, List.append_nil, ite_self]
      constructor
      · intro other some
        have ne : other ≠ name := by
          rintro rfl
          rw [unknown] at some
          cases some
        rw [h.seen other some]
        simp [ne]
      · rw [same, h.modules]
      · rw [same]
        exact h.table
      · rw [same, h.interceptors]
  · next m found =>
      have seen := h.seen name (by rw [found]; rfl)
      split
      · next before =>
          have known := seen.mp before
          have same : listed catalog (names ++ [name]) = listed catalog names := by
            rw [listed_concat, if_pos known]
          constructor
          · intro other some
            rw [h.seen other some]
            simp +contextual [known]
          · rw [same, h.modules]
          · rw [same]
            exact h.table
          · rw [same, h.interceptors]
      · next new =>
          have added : listed catalog (names ++ [name]) = listed catalog names ++ [m] := by
            rw [listed_concat, if_neg (mt seen.mpr new), found, Option.toList_some]
          constructor
          · intro other some
            rw [List.mem_cons, h.seen other some]
            simp [or_comm]
          · rw [added, List.map_append, ← h.modules]
            rfl
          · rw [added, declaredBindings, List.flatMap_append, List.flatMap_singleton]
            have held := h.table.foldl_add (m.bindings.map fun b => ⟨b, m.handle⟩)
            rwa [List.foldl_map] at held
          · rw [added, flattenInterceptors, List.flatMap_append, List.flatMap_singleton,
              ← flattenInterceptors, ← h.interceptors]
            rfl

theorem comprises_ofNames (catalog : Catalog) (names : List String) :
  (ofNames catalog names).Comprises catalog names
  := by
  induction names using List.reverseRecOn with
  | nil => exact comprises_empty catalog
  | append_singleton names name ih =>
      rw [ofNames, List.foldl_append]
      exact ih.visit name

end Gathered

end Wiring
