import Wiring.Proofs.Resolution.Access
import Wiring.Proofs.Resolution.Graph
import Wiring.Proofs.Resolution.Growth

/-!
# The effect of resolution on a variable

Fix a class and the variable that it holds once resolution is over. An expression that is being
built reads the variable only when it has been assigned before, but before in the expressions that
are unfinished at that moment. An eager object that is constructed meanwhile has its statement
emitted at once, in front of all of these, so its statement may read what the unfinished ones only
assign later.

`inj.Effect className v trail p accesses p'` says what a resolution does to the variable, if it
takes resolution from `p` to `p'` while the steps of the trail are in progress and gives an
expression with these accesses. Effects compose, so every rule of resolution is one of a few
effects put together. Its last field follows the statements that read the variable too early: each
of them waits for an unfinished expression that assigns the variable, or is already in front of the
statement of one.
-/

namespace Wiring

open Relation

namespace Progress

/-- The class holds a variable that is not lazy. -/
def Settled (className : String) (p : Progress) : Prop :=
  ∃ s, p.singleton? className = some s ∧ s.lazy = false

/-- The accesses of the statements, one after the other. -/
def accesses (v : String) (p : Progress) : List Access :=
  p.statements.toList.flatMap (·.accesses v)

/-- Some statement assigns the variable. -/
def Written (v : String) (p : Progress) : Prop :=
  .write ∈ p.accesses v

/-- The statements read the variable before they assign it. -/
def Broken (v : String) (p : Progress) : Prop :=
  (p.accesses v).head? = some .read

end Progress

namespace Injector

/-- Objects of the class are constructed eagerly. -/
def IsEager (inj : Injector) (className : String) : Prop :=
  ∃ c, inj.class? className = some c ∧ c.scope = .eagerSingleton

/-- The statement of an eager object reads the variable, and a later one, of an eager object that
needs the former, is the first statement to assign it. -/
def Hoists (inj : Injector) (v : String) (statements : List PlanStatement) : Prop :=
  ∃ before inner t e between outer u f after,
    statements = before ++ .construct inner t e :: (between ++ .construct outer u f :: after)
    ∧ (∀ s ∈ before ++ .construct inner t e :: between, .write ∉ s.accesses v)
    ∧ .read ∈ e.accesses v ∧ .write ∈ f.accesses v
    ∧ inj.IsEager inner ∧ inj.IsEager outer
    ∧ TransGen inj.Edge (.ofClass outer) (.ofClass inner)

/-- The statement of an eager object reads the variable, and no statement assigns it yet. -/
structure Owes (inj : Injector) (v : String) (p : Progress) (className : String) : Prop where
  eager : inj.IsEager className
  reads : ∃ before t e after,
    p.statements.toList = before ++ .construct className t e :: after ∧ .read ∈ e.accesses v
  unwritten : ¬ p.Written v

/-- What a resolution does to the variable that the class holds in the end. -/
structure Effect (inj : Injector) (className v : String) (trail : List Step) (p : Progress)
    (accesses : List Access) (p' : Progress) : Prop where
  deferred : p'.deferred = p.deferred
  statements : p.statements.toList <+: p'.statements.toList
  settled : p.Settled className → p'.Settled className
  /-- A variable that gets settled is assigned on the way. -/
  gain : .ofClass className ∉ trail → ¬ p.Settled className → p'.Settled className →
    p'.Written v ∨ (p.deferred = 0 ∧ .write ∈ accesses)
  /-- One that is settled is not assigned again. -/
  kept : p.Settled className → .write ∉ accesses ∧ (p'.Written v → p.Written v)
  /-- While the class is in progress, its variable is left alone. -/
  inside : .ofClass className ∈ trail →
    accesses = [] ∧ (p'.Written v → p.Written v) ∧ (p'.Settled className → p.Settled className)
  /-- Only a settled variable is read first. -/
  read : accesses.head? = some .read → p'.Settled className
  /-- One that was not settled before has been assigned by a statement. -/
  early : .ofClass className ∉ trail → ¬ p.Settled className → accesses.head? = some .read →
    p'.Written v
  /-- A statement that reads it too early is in front of the one that assigns it, or waits for an
  expression that does. All that is in progress needs the object of the statement. -/
  debt : p.accesses v = [] → p'.Broken v →
    inj.Hoists v p'.statements.toList
      ∨ ∃ inner, inj.Owes v p' inner ∧ p'.Settled className
        ∧ (p.Settled className ∨ .write ∈ accesses)
        ∧ ∀ step ∈ trail, TransGen inj.Edge step (.ofClass inner)

end Injector

namespace Progress

variable {v : String} {p p' : Progress}

theorem accesses_mono (h : p.statements.toList <+: p'.statements.toList) (v : String) :
  p.accesses v <+: p'.accesses v
  := by
  obtain ⟨new, eq⟩ := h
  use new.flatMap (·.accesses v)
  rw [accesses, accesses, ← eq, List.flatMap_append]

theorem Written.mono (h : p.Written v) (grows : p.statements.toList <+: p'.statements.toList) :
  p'.Written v
  := (accesses_mono grows v).subset h

/-- The first access stays the first one. -/
theorem Broken.of_prefix (h : p'.Broken v)
    (grows : p.statements.toList <+: p'.statements.toList) (accessed : p.accesses v ≠ []) :
  p.Broken v
  := by
  obtain ⟨new, eq⟩ := accesses_mono grows v
  rw [Broken, ← eq] at h
  cases accesses : p.accesses v with
  | nil => cases accessed accesses
  | cons access rest =>
      rw [accesses] at h
      rw [Broken, accesses]
      exact h

theorem settled_iff_of_eq {className : String}
    (h : p'.singleton? className = p.singleton? className) :
  p'.Settled className ↔ p.Settled className
  := by
  simp [Settled, h]

@[simp]
theorem settled_addSubclass {inj : Injector} {c : ManagedClass} {className : String} :
  (p.addSubclass inj c).Settled className ↔ p.Settled className
  := by
  apply settled_iff_of_eq
  rw [singleton?_addSubclass]

/-- Taking a variable for another class settles nothing. -/
theorem settled_takeSingleton_of_ne {options : Options} {className other : String} {lazy : Bool}
    (ne : className ≠ other) :
  (p.takeSingleton options other lazy).Settled className ↔ p.Settled className
  := by
  apply settled_iff_of_eq
  rw [singleton?_takeSingleton_of_ne ne]

@[simp]
theorem accesses_emit (s : PlanStatement) :
  (p.emit s).accesses v = p.accesses v ++ s.accesses v
  := by
  simp [accesses, emit]

theorem statements_prefix_emit (s : PlanStatement) :
  p.statements.toList <+: (p.emit s).statements.toList
  := (grows_emit s p).statements

theorem written_emit {s : PlanStatement} :
  (p.emit s).Written v ↔ p.Written v ∨ .write ∈ s.accesses v
  := by
  simp [Written]

end Progress

namespace Injector

variable {inj : Injector} {className v : String} {trail : List Step} {step : Step}
  {p p₁ p' q : Progress} {xs ys : List Access}

theorem Hoists.mono {statements later : List PlanStatement} (h : inj.Hoists v statements)
    (grows : statements <+: later) :
  inj.Hoists v later
  := by
  obtain ⟨before, inner, t, e, between, outer, u, f, after, rfl, h⟩ := h
  obtain ⟨new, rfl⟩ := grows
  use before, inner, t, e, between, outer, u, f, after ++ new
  constructor
  · simp
  · exact h

/-- What is read before it is assigned by a later statement is not assigned in time. -/
theorem Hoists.not_readsFollowWrites {statements : List PlanStatement}
    (h : inj.Hoists v statements) :
  ¬ ReadsFollowWrites (statements.flatMap (·.accesses v))
  := by
  obtain ⟨before, inner, t, e, between, outer, u, f, after, rfl, unwritten, reads, -⟩ := h
  obtain ⟨early, late, eq⟩ := List.append_of_mem reads
  intro follow
  have writes := follow (before.flatMap (·.accesses v) ++ early)
    (late ++ (between ++ .construct outer u f :: after).flatMap (·.accesses v)) (by simp [eq])
  obtain writes | writes := List.mem_append.mp writes
  · obtain ⟨s, hs, writes⟩ := List.mem_flatMap.mp writes
    apply unwritten s (List.mem_append_left _ hs) writes
  · apply unwritten (.construct inner t e) (by simp)
    simp [eq, writes]

theorem Owes.mono {inner : String} (h : inj.Owes v p inner)
    (grows : p.statements.toList <+: p'.statements.toList) (unwritten : ¬ p'.Written v) :
  inj.Owes v p' inner
  where
  eager := h.eager
  reads := by
    obtain ⟨before, t, e, after, eq, reads⟩ := h.reads
    obtain ⟨new, eq'⟩ := grows
    use before, t, e, after ++ new
    constructor
    · rw [← eq', eq]
      simp
    · exact reads
  unwritten := unwritten

/-- A debt is met by the first statement that assigns the variable, in time or not. -/
theorem Owes.hoists {inner outer u : String} {f : Expr} (h : inj.Owes v p inner)
    (eager : inj.IsEager outer) (needs : TransGen inj.Edge (.ofClass outer) (.ofClass inner))
    (writes : .write ∈ f.accesses v) :
  inj.Hoists v (p.emit (.construct outer u f)).statements.toList
  := by
  obtain ⟨before, t, e, after, eq, reads⟩ := h.reads
  use before, inner, t, e, after, outer, u, f, []
  refine ⟨?_, ?_, reads, writes, h.eager, eager, needs⟩
  · simp [Progress.emit, eq]
  · intro s hs writes
    rw [← eq] at hs
    apply h.unwritten
    apply List.mem_flatMap.mpr
    use s, hs

namespace Effect

/-- Nothing is done. -/
theorem refl (inj : Injector) (className v : String) (trail : List Step) (p : Progress) :
  inj.Effect className v trail p [] p
  where
  deferred := rfl
  statements := List.prefix_rfl
  settled h := h
  gain _ unsettled settled := absurd settled unsettled
  kept _ := ⟨List.not_mem_nil, id⟩
  inside _ := ⟨rfl, id, id⟩
  read h := by cases h
  early _ _ h := by cases h
  debt silent broken := by
    rw [Progress.Broken, silent] at broken
    cases broken

/-- One resolution after another. -/
theorem trans (h₁ : inj.Effect className v trail p xs p₁)
    (h₂ : inj.Effect className v trail p₁ ys p') :
  inj.Effect className v trail p (xs ++ ys) p'
  where
  deferred := h₂.deferred.trans h₁.deferred
  statements := h₁.statements.trans h₂.statements
  settled h := h₂.settled (h₁.settled h)
  gain outside unsettled settled := by
    by_cases settled₁ : p₁.Settled className
    · obtain written | ⟨now, writes⟩ := h₁.gain outside unsettled settled₁
      · left
        apply written.mono h₂.statements
      · right
        use now, List.mem_append_left _ writes
    · obtain written | ⟨now, writes⟩ := h₂.gain outside settled₁ settled
      · left
        exact written
      · right
        use h₁.deferred ▸ now, List.mem_append_right _ writes
  kept settled := by
    obtain ⟨writes₁, written₁⟩ := h₁.kept settled
    obtain ⟨writes₂, written₂⟩ := h₂.kept (h₁.settled settled)
    use by simp [writes₁, writes₂]
    intro written
    apply written₁ (written₂ written)
  inside within := by
    obtain ⟨rfl, written₁, settled₁⟩ := h₁.inside within
    obtain ⟨rfl, written₂, settled₂⟩ := h₂.inside within
    exact ⟨rfl, fun h => written₁ (written₂ h), fun h => settled₁ (settled₂ h)⟩
  read first := by
    cases xs with
    | nil => apply h₂.read first
    | cons access xs => apply h₂.settled (h₁.read first)
  early outside unsettled first := by
    cases xs with
    | nil =>
        by_cases settled₁ : p₁.Settled className
        · obtain written | ⟨-, ⟨⟩⟩ := h₁.gain outside unsettled settled₁
          apply written.mono h₂.statements
        · apply h₂.early outside settled₁ first
    | cons access xs => apply (h₁.early outside unsettled first).mono h₂.statements
  debt silent broken := by
    by_cases silent₁ : p₁.accesses v = []
    · -- the second resolution has run into debt
      obtain hoists | ⟨inner, owes, settled, source, needed⟩ := h₂.debt silent₁ broken
      · left
        exact hoists
      · right
        refine ⟨inner, owes, settled, ?_, needed⟩
        obtain settled₁ | writes := source
        · by_cases within : .ofClass className ∈ trail
          · left
            apply (h₁.inside within).2.2 settled₁
          · by_cases settled₀ : p.Settled className
            · left
              exact settled₀
            · obtain written | ⟨-, writes⟩ := h₁.gain within settled₀ settled₁
              · cases owes.unwritten (written.mono h₂.statements)
              · right
                apply List.mem_append_left _ writes
        · right
          apply List.mem_append_right _ writes
    · -- the first one has, and the second one leaves it so
      have broken₁ := broken.of_prefix h₂.statements silent₁
      obtain hoists | ⟨inner, owes, settled₁, source, needed⟩ := h₁.debt silent broken₁
      · left
        apply hoists.mono h₂.statements
      · right
        have unwritten : ¬ p'.Written v := fun h => owes.unwritten ((h₂.kept settled₁).2 h)
        refine ⟨inner, owes.mono h₂.statements unwritten, h₂.settled settled₁, ?_, needed⟩
        obtain settled₀ | writes := source
        · left
          exact settled₀
        · right
          apply List.mem_append_left _ writes

/-- Nothing but the statements, the depth in functions and the variable of the class matters. -/
theorem of_left_eq (h : inj.Effect className v trail q xs p')
    (settled : q.Settled className ↔ p.Settled className) (statements : q.statements = p.statements)
    (deferred : q.deferred = p.deferred) :
  inj.Effect className v trail p xs p'
  where
  deferred := h.deferred.trans deferred
  statements := statements ▸ h.statements
  settled h' := h.settled (settled.mpr h')
  gain outside unsettled settled' := by
    rw [← deferred]
    apply h.gain outside (fun h' => unsettled (settled.mp h')) settled'
  kept settled' := by
    obtain ⟨writes, written⟩ := h.kept (settled.mpr settled')
    use writes
    intro h'
    simpa [Progress.Written, Progress.accesses, statements] using written h'
  inside within := by
    obtain ⟨rfl, written, settled'⟩ := h.inside within
    refine ⟨rfl, ?_, fun h' => settled.mp (settled' h')⟩
    intro h'
    simpa [Progress.Written, Progress.accesses, statements] using written h'
  read := h.read
  early outside unsettled := h.early outside (fun h' => unsettled (settled.mp h'))
  debt silent broken := by
    rw [← settled]
    apply h.debt _ broken
    simpa [Progress.accesses, statements] using silent

theorem of_right_eq (h : inj.Effect className v trail p xs q)
    (settled : q.Settled className ↔ p'.Settled className)
    (statements : q.statements = p'.statements) (deferred : q.deferred = p'.deferred) :
  inj.Effect className v trail p xs p'
  := by
  have written : q.Written v ↔ p'.Written v := by
    simp [Progress.Written, Progress.accesses, statements]
  exact {
    deferred := deferred.symm.trans h.deferred
    statements := statements ▸ h.statements
    settled := fun h' => settled.mp (h.settled h')
    gain := fun outside unsettled h' => by
      rw [← written]
      apply h.gain outside unsettled (settled.mpr h')
    kept := fun h' => by
      rw [← written]
      apply h.kept h'
    inside := fun within => by
      rw [← written, ← settled]
      apply h.inside within
    read := fun first => settled.mp (h.read first)
    early := fun outside unsettled first => written.mp (h.early outside unsettled first)
    debt := fun silent broken => by
      have broken' : q.Broken v := by
        simpa [Progress.Broken, Progress.accesses, statements] using broken
      obtain hoists | ⟨inner, owes, settled', rest⟩ := h.debt silent broken'
      · left
        rw [← statements]
        exact hoists
      · right
        refine ⟨inner, owes.mono ?_ ?_, settled.mp settled', rest⟩
        · rw [statements]
        · rw [← written]
          exact owes.unwritten }

/-- A step is left. If it constructs the class, the variable has not been settled by that. -/
theorem leave (h : inj.Effect className v (step :: trail) p xs p')
    (other : p'.Settled className → .ofClass className ≠ step) :
  inj.Effect className v trail p xs p'
  where
  deferred := h.deferred
  statements := h.statements
  settled := h.settled
  gain outside unsettled settled := by
    apply h.gain _ unsettled settled
    simp [other settled, outside]
  kept := h.kept
  inside within := h.inside (List.mem_cons_of_mem _ within)
  read := h.read
  early outside unsettled first := by
    apply h.early _ unsettled first
    simp [other (h.read first), outside]
  debt silent broken := by
    obtain hoists | ⟨inner, owes, settled, source, needed⟩ := h.debt silent broken
    · left
      exact hoists
    · right
      exact ⟨inner, owes, settled, source, fun s hs => needed s (List.mem_cons_of_mem _ hs)⟩

/-- What is built inside a function is not evaluated with it. There nothing gets settled unless a
statement assigns it. -/
theorem delay (h : inj.Effect className v trail p.defer xs p') :
  inj.Effect className v trail p [] p'.resume
  where
  deferred := by
    rw [Progress.resume, h.deferred]
    rfl
  statements := h.statements
  settled := h.settled
  gain outside unsettled settled := by
    obtain written | ⟨now, -⟩ := h.gain outside unsettled settled
    · left
      exact written
    · cases now
  kept settled := ⟨List.not_mem_nil, (h.kept settled).2⟩
  inside within := ⟨rfl, (h.inside within).2⟩
  read first := by cases first
  early _ _ first := by cases first
  debt silent broken := by
    obtain hoists | ⟨inner, owes, settled, source, needed⟩ := h.debt silent broken
    · left
      exact hoists
    · right
      refine ⟨inner, owes.mono List.prefix_rfl owes.unwritten, settled, ?_, needed⟩
      left
      obtain settled₀ | writes := source
      · exact settled₀
      · by_contra unsettled
        by_cases within : .ofClass className ∈ trail
        · rw [(h.inside within).1] at writes
          cases writes
        · obtain written | ⟨now, -⟩ := h.gain within unsettled settled
          · cases owes.unwritten written
          · cases now

/-- The construction of an eager object of another class. Its expression becomes a statement. -/
theorem construct {other t : String} {e : Expr}
    (h : inj.Effect className v (.ofClass other :: trail) p (e.accesses v) p')
    (ne : className ≠ other) (eager : inj.IsEager other)
    (needed : ∀ s ∈ trail, TransGen inj.Edge s (.ofClass other)) :
  inj.Effect className v trail p [] (p'.emit (.construct other t e))
  where
  deferred := h.deferred
  statements := h.statements.trans (Progress.statements_prefix_emit _)
  settled := h.settled
  gain outside unsettled settled := by
    left
    apply Progress.written_emit.mpr
    obtain written | ⟨-, writes⟩ := h.gain (by simp [ne, outside]) unsettled settled
    · left
      exact written
    · right
      exact writes
  kept settled := by
    use List.not_mem_nil
    intro written
    obtain ⟨writes, written'⟩ := h.kept settled
    obtain written | writes' := Progress.written_emit.mp written
    · apply written' written
    · cases writes writes'
  inside within := by
    obtain ⟨nothing, written', settled'⟩ := h.inside (List.mem_cons_of_mem _ within)
    refine ⟨rfl, ?_, settled'⟩
    intro written
    obtain written | writes := Progress.written_emit.mp written
    · apply written' written
    · rw [PlanStatement.accesses_construct, nothing] at writes
      cases writes
  read first := by cases first
  early _ _ first := by cases first
  debt silent broken := by
    by_cases silent' : p'.accesses v = []
    · -- the statement itself reads the variable too early
      right
      have unwritten : ¬ p'.Written v := by simp [Progress.Written, silent']
      have first : (e.accesses v).head? = some .read := by
        simpa [Progress.Broken, silent'] using broken
      have settled₀ : p.Settled className := by
        by_contra unsettled
        by_cases within : .ofClass className ∈ Step.ofClass other :: trail
        · rw [(h.inside within).1] at first
          cases first
        · apply unwritten (h.early within unsettled first)
      refine ⟨other, ⟨eager, ?_, ?_⟩, h.settled settled₀, .inl settled₀, needed⟩
      · use p'.statements.toList, t, e, []
        constructor
        · simp [Progress.emit]
        · apply List.mem_of_mem_head? first
      · intro written
        obtain written | writes := Progress.written_emit.mp written
        · cases unwritten written
        · cases (h.kept settled₀).1 writes
    · have broken' := broken.of_prefix (Progress.statements_prefix_emit _) silent'
      obtain hoists | ⟨inner, owes, settled, source, needed'⟩ := h.debt silent broken'
      · left
        apply hoists.mono (Progress.statements_prefix_emit _)
      · by_cases writes : .write ∈ e.accesses v
        · left
          apply owes.hoists eager (needed' _ List.mem_cons_self) writes
        · right
          refine ⟨inner, owes.mono (Progress.statements_prefix_emit _) ?_, settled, ?_,
            fun s hs => needed' s (List.mem_cons_of_mem _ hs)⟩
          · intro written
            obtain written | writes' := Progress.written_emit.mp written
            · cases owes.unwritten written
            · cases writes writes'
          · left
            obtain settled₀ | writes' := source
            · exact settled₀
            · cases writes writes'

/-- The construction of the class itself for its variable, where the variable is not settled. If
that settles it, the expression is evaluated with what is around it. -/
theorem assign {e : Expr} {rest : List Access}
    (h : inj.Effect className v (.ofClass className :: trail) q xs p₁)
    (statements : q.statements = p.statements) (deferred : q.deferred = p.deferred)
    (statements' : p'.statements = p₁.statements) (deferred' : p'.deferred = p₁.deferred)
    (unsettled : ¬ p.Settled className) (outside : .ofClass className ∉ trail)
    (writes : e.accesses v = .write :: rest) (now : p'.Settled className → p.deferred = 0)
    (settled : p₁.Settled className → p'.Settled className) :
  inj.Effect className v trail p (e.accesses v) p'
  where
  deferred := by rw [deferred', h.deferred, deferred]
  statements := by
    rw [statements', ← statements]
    exact h.statements
  settled h' := absurd h' unsettled
  gain _ _ settled' := by
    right
    rw [writes]
    use now settled', List.mem_cons_self
  kept h' := absurd h' unsettled
  inside h' := absurd h' outside
  read first := by
    rw [writes] at first
    cases first
  early _ _ first := by
    rw [writes] at first
    cases first
  debt silent broken := by
    have silent₀ : q.accesses v = [] := by
      simpa [Progress.accesses, statements] using silent
    have broken₁ : p₁.Broken v := by
      simpa [Progress.Broken, Progress.accesses, statements'] using broken
    obtain hoists | ⟨inner, owes, settled₁, -, needed⟩ := h.debt silent₀ broken₁
    · left
      rw [statements']
      exact hoists
    · right
      refine ⟨inner, owes.mono ?_ ?_, settled settled₁, ?_,
        fun s hs => needed s (List.mem_cons_of_mem _ hs)⟩
      · rw [statements']
      · intro written
        apply owes.unwritten
        simpa [Progress.Written, Progress.accesses, statements'] using written
      · right
        rw [writes]
        apply List.mem_cons_self

/-- The construction of an eager object of the class itself. Its statement assigns the variable. -/
theorem constructSelf {e : Expr} {rest : List Access}
    (h : inj.Effect className v (.ofClass className :: trail) q xs p')
    (statements : q.statements = p.statements) (deferred : q.deferred = p.deferred)
    (unsettled : ¬ p.Settled className) (outside : .ofClass className ∉ trail)
    (writes : e.accesses v = .write :: rest) (settled : p'.Settled className)
    (eager : inj.IsEager className) :
  inj.Effect className v trail p [.read] (p'.emit (.construct className v e))
  where
  deferred := h.deferred.trans deferred
  statements := by
    rw [← statements]
    exact h.statements.trans (Progress.statements_prefix_emit _)
  settled h' := absurd h' unsettled
  gain _ _ _ := by
    left
    apply Progress.written_emit.mpr
    simp [writes]
  kept h' := absurd h' unsettled
  inside h' := absurd h' outside
  read _ := settled
  early _ _ _ := by
    apply Progress.written_emit.mpr
    simp [writes]
  debt silent broken := by
    left
    have silent₀ : q.accesses v = [] := by
      simpa [Progress.accesses, statements] using silent
    by_cases silent' : p'.accesses v = []
    · simp [Progress.Broken, silent', writes] at broken
    · have broken' := broken.of_prefix (Progress.statements_prefix_emit _) silent'
      obtain hoists | ⟨inner, owes, -, -, needed⟩ := h.debt silent₀ broken'
      · apply hoists.mono (Progress.statements_prefix_emit _)
      · apply owes.hoists eager (needed _ List.mem_cons_self)
        simp [writes]

/-- A settled variable is read. -/
theorem useSettled (settled : p.Settled className) (outside : .ofClass className ∉ trail) :
  inj.Effect className v trail p [.read] p
  where
  deferred := rfl
  statements := List.prefix_rfl
  settled h := h
  gain _ unsettled settled := absurd settled unsettled
  kept _ := ⟨by simp, id⟩
  inside h' := absurd h' outside
  read _ := settled
  early _ unsettled _ := absurd settled unsettled
  debt silent broken := by
    rw [Progress.Broken, silent] at broken
    cases broken

end Effect

end Injector

end Wiring
