import Wiring.Matcher
import Mathlib.Tactic.Common

/-!
# Used matchers

A matcher keeps under an argument nothing but what it would make of it (`Matcher.Sound`). So it answers
like a new one, whatever it has been asked before (`Matcher.Sound.selectsClass`,
`Matcher.Sound.selectsMethod`).
-/

namespace Wiring

/-- Under every name is kept what is made of it, if anything. -/
def Remembers {α : Type} (make : String → α) (kept : List (String × α)) : Prop :=
  ∀ name found, kept.lookup name = some found → found = make name

section

variable {α : Type} {make : String → α} {kept : List (String × α)}

theorem remembers_nil (make : String → α) :
  Remembers make []
  := by
  simp [Remembers]

theorem Remembers.reuse (h : Remembers make kept) (name : String) :
  (reuse make name kept).1 = make name ∧ Remembers make (reuse make name kept).2
  := by
  unfold Wiring.reuse
  cases known : kept.lookup name with
  | some held => exact ⟨h name held known, h⟩
  | none =>
      use rfl
      intro other found
      rw [List.lookup_cons]
      by_cases same : other = name
      · subst same
        simp [eq_comm]
      · rw [beq_eq_false_iff_ne.mpr same]
        apply h

end

namespace Matcher

variable [Dialect]

/-- A matcher for these classes that keeps what it would make. -/
structure Sound (bases : Bases) (mode : NamespaceMode) (matcher : Matcher) : Prop where
  bases_eq : matcher.bases = bases
  mode_eq : matcher.mode = mode
  globs : Remembers Pattern.ofGlob matcher.globs
  exacts : Remembers (NamespaceTest.exact mode) matcher.exacts
  fronts : Remembers (NamespaceTest.front mode) matcher.fronts

variable {bases : Bases} {mode : NamespaceMode} {matcher : Matcher}

/-- A new matcher keeps nothing. -/
theorem sound_new (bases : Bases) (mode : NamespaceMode) :
  Sound bases mode { bases, mode }
  where
  bases_eq := rfl
  mode_eq := rfl
  globs := remembers_nil _
  exacts := remembers_nil _
  fronts := remembers_nil _

theorem Sound.selectsClass (h : matcher.Sound bases mode) (s : ClassSelector) (c : ClassDecl) :
  (matcher.selectsClass s c).1 = s.selects bases mode c
    ∧ (matcher.selectsClass s c).2.Sound bases mode
  := by
  obtain ⟨rfl, rfl, globs, exacts, fronts⟩ := h
  cases s with
  | inNamespace argument =>
      obtain ⟨answer, kept⟩ := exacts.reuse argument
      constructor
      · rw [ClassSelector.selects, ← answer]
        rfl
      · exact ⟨rfl, rfl, globs, kept, fronts⟩
  | subNamespace argument =>
      obtain ⟨answer, kept⟩ := fronts.reuse argument
      constructor
      · rw [ClassSelector.selects, ← answer]
        rfl
      · exact ⟨rfl, rfl, globs, exacts, kept⟩
  | _ => exact ⟨rfl, rfl, rfl, globs, exacts, fronts⟩

theorem Sound.selectsMethod (h : matcher.Sound bases mode) (s : MethodSelector) (m : MethodDecl) :
  (matcher.selectsMethod s m).1 = s.selects m ∧ (matcher.selectsMethod s m).2.Sound bases mode
  := by
  obtain ⟨rfl, rfl, globs, exacts, fronts⟩ := h
  cases s with
  | like argument =>
      obtain ⟨answer, kept⟩ := globs.reuse argument
      constructor
      · rw [MethodSelector.selects, globMatches, ← answer]
        rfl
      · exact ⟨rfl, rfl, kept, exacts, fronts⟩
  | any => exact ⟨rfl, rfl, rfl, globs, exacts, fronts⟩

/-! ### Questions -/

/-- What a matcher is asked. -/
inductive Question where
  | ofClass (s : ClassSelector) (c : ClassDecl)
  | ofMethod (s : MethodSelector) (m : MethodDecl)

/-- The matcher after a question. -/
def ask (matcher : Matcher) : Question → Matcher
  | .ofClass s c => (matcher.selectsClass s c).2
  | .ofMethod s m => (matcher.selectsMethod s m).2

/-- Any questions leave a matcher sound. -/
theorem Sound.foldl_ask (h : matcher.Sound bases mode) (questions : List Question) :
  (questions.foldl ask matcher).Sound bases mode
  := by
  induction questions generalizing matcher with
  | nil => exact h
  | cons question questions ih =>
      apply ih
      cases question with
      | ofClass s c => exact (h.selectsClass s c).2
      | ofMethod s m => exact (h.selectsMethod s m).2

end Matcher

end Wiring
