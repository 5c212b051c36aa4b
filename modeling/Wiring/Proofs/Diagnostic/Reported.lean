import Wiring.Diagnostic.Reported
import Mathlib.Tactic.Common

/-!
# Values and reports

What becomes of the value and of the reports as one computation follows another. Since nothing that
is reported has a part in what comes next, a property of values that every step of a list keeps is
kept by all of them (`Reported.foldlM_keeps`), and so is one of what has been gone through, the value
and the reports together (`Reported.foldlM_accounts`).
-/

namespace Wiring

namespace Reported

variable {α β : Type}

instance : LawfulMonad Reported :=
  LawfulMonad.mk' Reported
    (by
      intro α x
      simp [Functor.map, bind])
    (by
      intro α β x f
      simp [Bind.bind, bind, pure])
    (by
      intro α β γ x f g
      simp [Bind.bind, bind])

@[simp]
theorem value_bind (x : Reported α) (f : α → Reported β) :
  (x >>= f).value = (f x.value).value
  := rfl

@[simp]
theorem reports_bind (x : Reported α) (f : α → Reported β) :
  (x >>= f).reports = x.reports ++ (f x.value).reports
  := rfl

@[simp]
theorem value_pure (x : α) :
  (pure x : Reported α).value = x
  := rfl

@[simp]
theorem reports_pure (x : α) :
  (pure x : Reported α).reports = []
  := rfl

@[simp]
theorem value_map (f : α → β) (x : Reported α) :
  (f <$> x).value = f x.value
  := rfl

@[simp]
theorem reports_map (f : α → β) (x : Reported α) :
  (f <$> x).reports = x.reports
  := List.append_nil _

@[simp]
theorem value_mapM (f : α → Reported β) (xs : List α) :
  (xs.mapM f).value = xs.map fun x => (f x).value
  := by
  induction xs with
  | nil => rfl
  | cons x xs ih => simp [List.mapM_cons, ih]

@[simp]
theorem reports_mapM (f : α → Reported β) (xs : List α) :
  (xs.mapM f).reports = xs.flatMap fun x => (f x).reports
  := by
  induction xs with
  | nil => rfl
  | cons x xs ih => simp [List.mapM_cons, ih]

/-- What comes next depends on the value only. -/
theorem bind_congr_value {x : Reported α} {f g : α → Reported β} (h : f x.value = g x.value) :
  x >>= f = x >>= g
  := by
  simp [Bind.bind, bind, h]

/-- What every step keeps is kept by the steps of a list. -/
theorem foldlM_keeps {P : β → Prop} {step : β → α → Reported β}
    (keeps : ∀ b a, P b → P (step b a).value) (xs : List α) {b : β} (h : P b) :
  P (xs.foldlM step b).value
  := by
  induction xs generalizing b with
  | nil => exact h
  | cons x xs ih =>
      rw [List.foldlM_cons, value_bind]
      apply ih (keeps b x h)

/-- What every step keeps, given what has been gone through and what has been reported before it, is
kept by the steps of a list. -/
theorem foldlM_accounts {P : List α → β → List Diagnostic → Prop} {step : β → α → Reported β}
    (keeps : ∀ seen b reports a, P seen b reports →
      P (seen ++ [a]) (step b a).value (reports ++ (step b a).reports))
    (xs : List α) {seen : List α} {b : β} {reports : List Diagnostic} (h : P seen b reports) :
  P (seen ++ xs) (xs.foldlM step b).value (reports ++ (xs.foldlM step b).reports)
  := by
  induction xs generalizing seen b reports with
  | nil => simpa using h
  | cons x xs ih =>
      have rest := ih (keeps seen b reports x h)
      rw [List.foldlM_cons, value_bind, reports_bind, ← List.append_assoc, List.append_cons]
      exact rest

/-- If every step reports of a kind what is due for its element, the steps of a list report it for one
element after the other. -/
theorem filter_reports_foldlM {step : β → α → Reported β} {test : Diagnostic → Bool}
    {due : α → List Diagnostic} (h : ∀ b a, (step b a).reports.filter test = due a) (xs : List α)
    (b : β) :
  (xs.foldlM step b).reports.filter test = xs.flatMap due
  := by
  induction xs generalizing b with
  | nil => rfl
  | cons x xs ih => rw [List.foldlM_cons, reports_bind, List.filter_append, h, ih, List.flatMap_cons]

end Reported

end Wiring
