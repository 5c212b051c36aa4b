import Mathlib.Data.List.Induction
import Mathlib.Data.List.Nodup
import Mathlib.Tactic.Common

/-!
# The first element of each key

Of the elements of a list that have a key in common the first one is kept, and the elements kept
stand in the order in which their keys come up. One more element at the end is kept exactly if its
key is new (`firstOfEach_concat`), and by its key the same element is found as before
(`find?_firstOfEach`).
-/

namespace Wiring

variable {α κ : Type} [DecidableEq κ] (key : α → κ)

/-- The first element of each key, in the order in which the keys come up. -/
def firstOfEach (xs : List α) : List α :=
  xs.eraseDupsBy fun x y => key x = key y

@[simp]
theorem firstOfEach_nil :
  firstOfEach key [] = []
  := rfl

theorem firstOfEach_cons (x : α) (xs : List α) :
  firstOfEach key (x :: xs) = x :: firstOfEach key (xs.filter fun y => key y ≠ key x)
  := by
  simp [firstOfEach, List.eraseDupsBy_cons]

/-- An element at the end is kept if no other one has its key. -/
theorem firstOfEach_concat (xs : List α) (x : α) :
  firstOfEach key (xs ++ [x])
    = if key x ∈ xs.map key then firstOfEach key xs else firstOfEach key xs ++ [x]
  := by
  -- what is left of the list behind its first element is shorter, but no part of it
  induction h : xs.length using Nat.strongRecOn generalizing xs with
  | ind n ih =>
      cases xs with
      | nil => simp [firstOfEach_cons]
      | cons first rest =>
          have shorter : (rest.filter fun y => key y ≠ key first).length < n := by
            have := List.length_filter_le (fun y => decide (key y ≠ key first)) rest
            simp only [List.length_cons] at h
            omega
          rw [List.cons_append, firstOfEach_cons, firstOfEach_cons, List.filter_append]
          by_cases same : key x = key first
          · simp [same]
          · have last : [x].filter (fun y => key y ≠ key first) = [x] := by simp [same]
            have kept : key x ∈ (rest.filter fun y => key y ≠ key first).map key
                ↔ key x ∈ (first :: rest).map key := by
              simp only [List.mem_map, List.mem_filter, List.map_cons, List.mem_cons]
              grind
            rw [last, ih _ shorter _ rfl, if_congr kept rfl rfl]
            split <;> rfl

theorem mem_of_mem_firstOfEach {xs : List α} {x : α} (h : x ∈ firstOfEach key xs) :
  x ∈ xs
  := by
  induction xs using List.reverseRecOn with
  | nil => simp at h
  | append_singleton xs last ih =>
      rw [firstOfEach_concat] at h
      split at h
      · exact List.mem_append_left _ (ih h)
      · obtain before | new := List.mem_append.mp h
        · exact List.mem_append_left _ (ih before)
        · exact List.mem_append_right _ new

/-- Every key comes up once. -/
theorem nodup_firstOfEach (xs : List α) :
  ((firstOfEach key xs).map key).Nodup
  := by
  induction xs using List.reverseRecOn with
  | nil => exact List.nodup_nil
  | append_singleton xs x ih =>
      rw [firstOfEach_concat]
      split
      · exact ih
      · next new =>
          rw [List.map_append]
          apply ih.append (List.nodup_singleton _)
          intro k before last
          obtain ⟨y, hy, rfl⟩ := List.mem_map.mp before
          apply new
          rw [← List.mem_singleton.mp last]
          exact List.mem_map_of_mem (mem_of_mem_firstOfEach key hy)

/-- By its key the same element is found. -/
theorem find?_firstOfEach (xs : List α) (k : κ) :
  (firstOfEach key xs).find? (key · = k) = xs.find? (key · = k)
  := by
  induction xs using List.reverseRecOn with
  | nil => rfl
  | append_singleton xs x ih =>
      rw [firstOfEach_concat, List.find?_append]
      split
      · next known =>
          rw [ih]
          by_cases same : key x = k
          · obtain ⟨y, hy, eq⟩ := List.mem_map.mp known
            have found : (xs.find? (key · = k)).isSome := by
              rw [List.find?_isSome]
              use y, hy
              simpa [← same] using eq
            rw [Option.or_of_isSome found]
          · simp [same]
      · rw [List.find?_append, ih]

/-- The same keys come up. -/
theorem mem_map_firstOfEach {xs : List α} {k : κ} :
  k ∈ (firstOfEach key xs).map key ↔ k ∈ xs.map key
  := by
  have found (ys : List α) : k ∈ ys.map key ↔ (ys.find? (key · = k)).isSome := by
    simp [List.find?_isSome]
  rw [found, find?_firstOfEach, found]

/-- An element whose key has come up before makes no difference. -/
theorem firstOfEach_append_cons {xs : List α} {x : α} (h : key x ∈ xs.map key) (ys : List α) :
  firstOfEach key (xs ++ x :: ys) = firstOfEach key (xs ++ ys)
  := by
  induction ys using List.reverseRecOn with
  | nil => rw [firstOfEach_concat, if_pos h, List.append_nil]
  | append_singleton ys y ih =>
      have keys : key y ∈ (xs ++ x :: ys).map key ↔ key y ∈ (xs ++ ys).map key := by
        simp only [List.map_append, List.map_cons, List.mem_append, List.mem_cons]
        grind
      rw [← List.cons_append, ← List.append_assoc, ← List.append_assoc, firstOfEach_concat,
        firstOfEach_concat, if_congr keys rfl rfl, ih]

/-- Elements whose keys have come up before may be left out. -/
theorem firstOfEach_append_filter {xs ys : List α} {test : α → Bool}
    (h : ∀ y ∈ ys, test y = false → key y ∈ xs.map key) (zs : List α) :
  firstOfEach key (xs ++ (ys.filter test ++ zs)) = firstOfEach key (xs ++ (ys ++ zs))
  := by
  induction ys generalizing xs with
  | nil => rfl
  | cons y ys ih =>
      have rest : ∀ z ∈ ys, test z = false → key z ∈ (xs ++ [y]).map key := by
        intro z hz out
        rw [List.map_append]
        exact List.mem_append_left _ (h z (List.mem_cons_of_mem _ hz) out)
      cases kept : test y with
      | true =>
          rw [List.filter_cons_of_pos kept, List.cons_append, List.cons_append, List.append_cons,
            ih rest, ← List.append_cons]
      | false =>
          have known := h y List.mem_cons_self kept
          rw [List.filter_cons_of_neg (by simp [kept]), List.cons_append,
            firstOfEach_append_cons key known, ih fun z hz => h z (List.mem_cons_of_mem _ hz)]

/-- A list without its repeats is the first of each of its elements. -/
theorem eraseDups_eq_firstOfEach (xs : List κ) :
  xs.eraseDups = firstOfEach id xs
  := rfl

theorem nodup_eraseDups (xs : List κ) :
  xs.eraseDups.Nodup
  := by
  simpa [eraseDups_eq_firstOfEach] using nodup_firstOfEach id xs

end Wiring
