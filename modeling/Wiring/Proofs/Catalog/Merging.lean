import Wiring.Proofs.Catalog.WellFormed
import Wiring.Proofs.FirstOfEach

/-!
# Merging of classes

Each part of a class is merged by a rule of its own when the class is declared again: of the
constructors and of the bases the first one stands, of the methods the first one of each name, and
setters are added. What comes of it is `ClassDecl.merged`, and a further method or a further
declaration leaves a class of that form (`ClassDecl.addMethod_merged`, `ClassDecl.merge_merged`).
-/

namespace Wiring

/-! ### Methods -/

/-- Another method of that name has other parameters. -/
def Contradicted (methods : List MethodDecl) (m : MethodDecl) : Prop :=
  ∃ other ∈ methods, other.name = m.name ∧ other.params ≠ m.params

instance (methods : List MethodDecl) (m : MethodDecl) : Decidable (Contradicted methods m) :=
  inferInstanceAs (Decidable (∃ other ∈ methods, other.name = m.name ∧ other.params ≠ m.params))

/-- The method, ambiguous if it was before or if another one of its name has other parameters. -/
def marked (methods : List MethodDecl) (m : MethodDecl) : MethodDecl :=
  { m with ambiguous := m.ambiguous || Contradicted methods m }

/-- Of each name the first method, marked. -/
def mergedMethods (methods : List MethodDecl) : List MethodDecl :=
  (firstOfEach (·.name) methods).map (marked methods)

section

variable {methods : List MethodDecl} {m held : MethodDecl}

theorem contradicted_concat_iff :
  Contradicted (methods ++ [m]) held
    ↔ Contradicted methods held ∨ m.name = held.name ∧ m.params ≠ held.params
  := by
  simp [Contradicted, or_and_right, exists_or]

/-- A further method has no effect on a method of another name or of the same parameters. -/
theorem marked_concat_of_agree (h : m.name = held.name → m.params = held.params) :
  marked (methods ++ [m]) held = marked methods held
  := by
  have same : Contradicted (methods ++ [m]) held ↔ Contradicted methods held := by
    rw [contradicted_concat_iff, or_iff_left]
    rintro ⟨name, params⟩
    exact params (h name)
  rw [marked, marked, decide_eq_decide.mpr same]

theorem marked_concat_of_differ (name : m.name = held.name) (params : m.params ≠ held.params) :
  marked (methods ++ [m]) held = { marked methods held with ambiguous := true }
  := by
  have contradicted : Contradicted (methods ++ [m]) held :=
    contradicted_concat_iff.mpr (Or.inr ⟨name, params⟩)
  simp [marked, contradicted]

theorem marked_of_new (new : m.name ∉ methods.map (·.name)) :
  marked methods m = m
  := by
  have not : ¬ Contradicted methods m := by
    rintro ⟨other, member, name, -⟩
    exact new (name ▸ List.mem_map_of_mem member)
  simp [marked, not]

theorem find?_mergedMethods (methods : List MethodDecl) (name : String) :
  (mergedMethods methods).find? (·.name = name)
    = (methods.find? (·.name = name)).map (marked methods)
  := by
  rw [mergedMethods, List.find?_map, ← find?_firstOfEach]
  rfl

end

/-! ### Setters -/

/-- The setters, and behind them those added that are not there yet. -/
def mergedSetters (held added : List String) : List String :=
  held ++ (added.filter (· ∉ held)).eraseDups

/-- A further setter goes to the end, unless it is there already. -/
theorem mergedSetters_concat (held added : List String) (setter : String) :
  mergedSetters held (added ++ [setter])
    = if setter ∈ mergedSetters held added then mergedSetters held added
      else mergedSetters held added ++ [setter]
  := by
  have known : setter ∈ mergedSetters held added ↔ setter ∈ held ∨ setter ∈ added := by
    simp only [mergedSetters, List.mem_append, List.mem_eraseDups, List.mem_filter]
    grind
  rw [if_congr known rfl rfl]
  simp only [mergedSetters, List.filter_append, List.eraseDups_append]
  by_cases old : setter ∈ held
  · simp [old]
  · by_cases again : setter ∈ added <;> simp [old, again, List.removeAll, List.eraseDups_cons]

/-! ### Classes -/

namespace ClassDecl

/-- What becomes of a class that is declared again, with the methods that are given. The first
constructor and the first base stand, and setters are added to those of the first declaration. -/
def merged (first : ClassDecl) (later : List ClassDecl) (methods : List MethodDecl) : ClassDecl where
  name := first.name
  params := first.params
  base := (first :: later).findSome? (·.base)
  methods := mergedMethods methods
  setters := mergedSetters first.setters (later.flatMap (·.setters))
  duplicated := first.duplicated || later.any (first.params ≠ ·.params)
  location := first.location

variable {first : ClassDecl} {later : List ClassDecl} {methods : List MethodDecl}

theorem merged_nil (first : ClassDecl) :
  first.merged [] [] = { first with methods := [] }
  := by
  simp [merged, mergedMethods, mergedSetters]

/-- A further method is the first one of its name, or marks that one if its parameters differ. -/
theorem addMethod_merged (m : MethodDecl) :
  (first.merged later methods).addMethod m = first.merged later (methods ++ [m])
  := by
  suffices h : ((first.merged later methods).addMethod m).methods = mergedMethods (methods ++ [m]) by
    have others : (first.merged later methods).addMethod m
        = { first.merged later methods with
            methods := ((first.merged later methods).addMethod m).methods } := by
      unfold addMethod
      split
      · rfl
      · split <;> rfl
    rw [others, h]
    rfl
  have found : (first.merged later methods).method? m.name
      = (methods.find? (·.name = m.name)).map (marked methods) := find?_mergedMethods methods m.name
  unfold addMethod
  rw [found, mergedMethods, firstOfEach_concat]
  cases known : methods.find? (·.name = m.name) with
  | none =>
      have new : m.name ∉ methods.map (·.name) := by simpa using known
      have kept : (firstOfEach (·.name) methods).map (marked (methods ++ [m]))
          = mergedMethods methods := by
        apply List.map_congr_left
        intro other member
        apply marked_concat_of_agree
        intro name
        apply absurd _ new
        rw [name]
        exact List.mem_map_of_mem (mem_of_mem_firstOfEach _ member)
      have last : marked (methods ++ [m]) m = m := by
        rw [marked_concat_of_agree (fun _ => rfl), marked_of_new new]
      rw [if_neg new, List.map_append, kept, List.map_singleton, last]
      rfl
  | some held =>
      have name : held.name = m.name := by simpa using List.find?_some known
      have old : m.name ∈ methods.map (·.name) :=
        name ▸ List.mem_map_of_mem (List.mem_of_find?_eq_some known)
      -- the method kept of that name is the one found
      have unique {other : MethodDecl} (member : other ∈ firstOfEach (·.name) methods)
          (eq : other.name = m.name) : other = held := by
        have other := (find?_eq_some_iff_of_nodup (fun m : MethodDecl => m.name)
          (nodup_firstOfEach (fun m : MethodDecl => m.name) methods) m.name other).mpr ⟨member, eq⟩
        rw [find?_firstOfEach, known] at other
        exact (Option.some.inj other).symm
      rw [if_pos old, Option.map_some]
      dsimp only
      split
      · next agree =>
          apply List.map_congr_left
          intro other member
          symm
          apply marked_concat_of_agree
          intro eq
          rw [unique member eq.symm]
          exact agree.symm
      · next differ =>
          rw [merged, mergedMethods, List.map_map]
          apply List.map_congr_left
          intro other member
          dsimp only [Function.comp_apply]
          split
          · next eq =>
              obtain rfl := unique member eq
              rw [marked_concat_of_differ name.symm (Ne.symm differ)]
          · next ne =>
              rw [marked_concat_of_agree]
              intro eq
              exact absurd eq.symm ne

theorem foldl_addMethod_merged (more : List MethodDecl) :
  more.foldl addMethod (first.merged later methods) = first.merged later (methods ++ more)
  := by
  induction more generalizing methods with
  | nil => simp
  | cons m more ih =>
      rw [List.foldl_cons, addMethod_merged, ih, List.append_assoc, List.singleton_append]

theorem foldl_addSetter (c : ClassDecl) (held : List String) {added : List String}
    (h : c.setters = mergedSetters held added) (setters : List String) :
  setters.foldl addSetter c = { c with setters := mergedSetters held (added ++ setters) }
  := by
  induction setters generalizing c added with
  | nil => rw [List.foldl_nil, List.append_nil, ← h]
  | cons setter setters ih =>
      have one : c.addSetter setter
          = { c with setters := mergedSetters held (added ++ [setter]) } := by
        rw [addSetter, mergedSetters_concat, ← h]
        split <;> rfl
      rw [List.foldl_cons, one, ih _ rfl, List.append_assoc, List.singleton_append]

/-- The class declared once more. -/
theorem merge_merged (c : ClassDecl) :
  (first.merged later methods).merge c = first.merged (later ++ [c]) methods
  := by
  have base : (first.merged later methods).base.or c.base
      = (first :: (later ++ [c])).findSome? (·.base) := by
    rw [← List.cons_append, List.findSome?_append, List.findSome?_singleton]
    rfl
  have duplicated : ((first.merged later methods).duplicated
        || decide ((first.merged later methods).params ≠ c.params))
      = (first.duplicated || (later ++ [c]).any (first.params ≠ ·.params)) := by
    rw [List.any_append, List.any_cons, List.any_nil, Bool.or_false, ← Bool.or_assoc]
    rfl
  rw [merge, foldl_addSetter _ first.setters rfl, base, duplicated]
  simp [merged]

end ClassDecl

end Wiring
