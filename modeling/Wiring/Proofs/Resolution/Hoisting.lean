import Wiring.Proofs.Resolution.Construction

/-!
# Hoisted variables

Every variable of a plan is declared once and is assigned somewhere. A temporary is assigned just
once, at the head of the sequence that calls the setters of its object (`declared_once`).

A variable is declared when it is taken, and it is taken on behalf of one construction, which
assigns it. So as many assignments are made as variables are declared, but for those of lazy
objects, which are constructed again (`Resolves.tallies`).
-/

namespace Wiring

open List (range)

/-! ### Names of variables -/

/-- Neither prefix of variables is the other one followed by digits. -/
def Options.PrefixesApart (options : Options) : Prop :=
  ∀ digits : String, (∀ d ∈ digits.toList, d.isDigit = true) →
    options.singletonPrefix ≠ options.instancePrefix ++ digits
      ∧ options.instancePrefix ≠ options.singletonPrefix ++ digits

/-- A number begins with digits. -/
theorem isDigit_of_front {n : Nat} {digits rest : List Char}
    (number : (toString n).toList = digits ++ rest) :
  ∀ d ∈ (String.ofList digits).toList, d.isDigit = true
  := by
  intro d hd
  apply Nat.isDigit_of_mem_toDigits (b := 10) (n := n) (by decide) (by decide)
  have written : (toString n).toList = Nat.toDigits 10 n := by simp
  rw [← written, number]
  apply List.mem_append_left
  simpa using hd

/-- No variable of a shared object is a temporary. -/
theorem Options.PrefixesApart.ne {options : Options} (apart : options.PrefixesApart) (i n : Nat) :
  options.singletonPrefix ++ toString i ≠ options.instancePrefix ++ toString n
  := by
  intro eq
  have letters : options.singletonPrefix.toList ++ (toString i).toList
      = options.instancePrefix.toList ++ (toString n).toList := by
    rw [← String.toList_append, eq, String.toList_append]
  -- the longer prefix goes on with digits, the first ones of the number behind the other
  obtain ⟨digits, longer, number⟩ | ⟨digits, longer, number⟩ :=
    List.append_eq_append_iff.mp letters
  · apply (apart _ (isDigit_of_front number)).2
    apply String.toList_injective
    simpa using longer
  · apply (apart _ (isDigit_of_front number)).1
    apply String.toList_injective
    simpa using longer

/-! ### Counts -/

namespace Progress

/-- Between the two progresses as much has been made, the number included, as was given to be made
or has been taken. If more has been made then there is an excuse. -/
def Counts (made taken : Progress → Nat) (excuse : Progress → Progress → Prop) (given number : Nat)
    (p p' : Progress) : Prop :=
  ∃ more, number + made p' + taken p = given + made p + taken p' + more
    ∧ (more ≠ 0 → excuse p p')

/-- What excuses a part of a run excuses all of it. -/
structure Spreads (excuse : Progress → Progress → Prop) : Prop where
  before : ∀ {p q r : Progress}, p.Grows q → excuse q r → excuse p r
  after : ∀ {p q r : Progress}, q.Grows r → excuse p q → excuse p r

namespace Counts

variable {made taken : Progress → Nat} {excuse : Progress → Progress → Prop}
  {given given' number number' : Nat} {p p₁ p' q q' : Progress}

theorem refl (p : Progress) :
  Counts made taken excuse 0 0 p p
  := by
  use 0
  simp

/-- One part of a run after another. -/
theorem trans (h₁ : Counts made taken excuse given number p p₁)
    (h₂ : Counts made taken excuse given' number' p₁ p') (spreads : Spreads excuse)
    (grows₁ : p.Grows p₁) (grows₂ : p₁.Grows p') :
  Counts made taken excuse (given + given') (number + number') p p'
  := by
  obtain ⟨more₁, eq₁, excused₁⟩ := h₁
  obtain ⟨more₂, eq₂, excused₂⟩ := h₂
  use more₁ + more₂
  constructor
  · omega
  · intro ne
    by_cases none : more₁ = 0
    · apply spreads.before grows₁ (excused₂ _)
      omega
    · exact spreads.after grows₂ (excused₁ none)

/-- The excess is the same if the rest balances. -/
theorem congr (h : Counts made taken excuse given number q q') (weaken : excuse q q' → excuse p p')
    (eq : number' + made p' + taken p + (given + made q + taken q')
      = number + made q' + taken q + (given' + made p + taken p')) :
  Counts made taken excuse given' number' p p'
  := by
  obtain ⟨more, count, excused⟩ := h
  use more
  constructor
  · omega
  · exact fun ne => weaken (excused ne)

end Counts

end Progress

/-! ### Assignments -/

namespace Expr

/-- The expression assigns the variable. -/
def assigns (v : String) : Expr → Bool
  | .assign target _ => target = v
  | _ => false

/-- The number of assignments to the variable in the expressions. -/
def assignments (v : String) (es : List Expr) : Nat :=
  (visitedAll es).countP (assigns v)

variable {v : String}

@[simp]
theorem assignments_nil :
  assignments v [] = 0
  := rfl

theorem assignments_cons (e : Expr) (es : List Expr) :
  assignments v (e :: es) = assignments v [e] + assignments v es
  := by
  simp [assignments]

@[simp]
theorem assignments_null :
  assignments v [.null] = 0
  := rfl

@[simp]
theorem assignments_name (name : String) :
  assignments v [.name name] = 0
  := rfl

@[simp]
theorem assignments_once (target : String) (e : Expr) :
  assignments v [.once target e] = assignments v [e]
  := by
  simp [assignments, once, visited, assigns]

@[simp]
theorem assignments_delayed (e : Expr) :
  assignments v [.delayed e] = assignments v [e]
  := by
  simp [assignments, delayed, visited, Stmt.visitedAll, Stmt.visited, assigns]

@[simp]
theorem assignments_callMember (object property : String) (args : List Expr) :
  assignments v [.call (.member (.name object) property) args] = assignments v args
  := by
  simp [assignments, visited, assigns]

@[simp]
theorem assignments_assignedTo (target : Option String) (className : String) (args : List Expr) :
  assignments v [.assignedTo target (.new className args)]
    = assignments v args + target.toList.count v
  := by
  cases target <;>
    simp [assignments, assignedTo, visited, assigns, List.countP_cons, List.count_singleton]

@[simp]
theorem assignments_withSetters (target className : String) (args calls : List Expr) :
  assignments v [.sequence (.assign target (.new className args) :: (calls ++ [.name target]))]
    = assignments v args + assignments v calls + [target].count v
  := by
  simp [assignments, visited, assigns, List.countP_cons, List.count_singleton]

/-- The variable is assigned as often as anything assigns it. -/
theorem exists_assign_mem_iff {nodes : List Expr} :
  (∃ value, .assign v value ∈ nodes) ↔ nodes.countP (assigns v) ≠ 0
  := by
  rw [← Nat.pos_iff_ne_zero, List.countP_pos_iff]
  constructor
  · rintro ⟨value, member⟩
    use .assign v value, member
    simp [assigns]
  · rintro ⟨e, member, assigns⟩
    unfold Expr.assigns at assigns
    split at assigns
    · next target value =>
        obtain rfl : target = v := by simpa using assigns
        use value
    · cases assigns

end Expr

namespace Progress

/-- The names of the variables of shared objects. -/
def sharedNames (p : Progress) : List String :=
  p.singletons.map (·.name)

/-- The names of the temporaries. -/
def temporaryNames (options : Options) (p : Progress) : List String :=
  (range p.temporaries).map fun n => options.instancePrefix ++ toString n

/-- The number of assignments to the variable in the statements. -/
def assignments (v : String) (p : Progress) : Nat :=
  p.nodes.countP (Expr.assigns v)

/-- How often the variable has been declared. -/
def declared (v : String) (p : Progress) : Nat :=
  p.declarations.toList.count v

/-- Between the two progresses the variable has been assigned as often as it has been given to be
assigned or declared. It may have been assigned yet again if it is that of a shared object. -/
def Tallies (v : String) : Nat → Nat → Progress → Progress → Prop :=
  Counts (assignments v) (declared v) fun _ p' => v ∈ p'.sharedNames

/-- The variables that have been taken are those of the shared objects and the temporaries. -/
def Listed (options : Options) (p : Progress) : Prop :=
  p.declarations.toList.Perm (p.sharedNames ++ p.temporaryNames options)

variable {p p₁ p' q q' : Progress} {v : String} {given given' made made' : Nat} {options : Options}
  {className : String} {lazy : Bool}

theorem sharedNames_eq (p : Progress) :
  p.sharedNames = p.holdings.map (·.2)
  := by
  simp [sharedNames, holdings]

theorem sharedNames_subset_of_grows (h : p.Grows q) :
  p.sharedNames ⊆ q.sharedNames
  := by
  rw [sharedNames_eq, sharedNames_eq]
  exact (h.holdings.map _).subset

@[simp]
theorem sharedNames_setLazy :
  (p.setLazy className lazy).sharedNames = p.sharedNames
  := by
  rw [sharedNames_eq, holdings_setLazy, sharedNames_eq]

theorem declared_eq_of_declarations_eq (h : q.declarations = p.declarations) :
  q.declared v = p.declared v
  := by
  rw [declared, h, declared]

@[simp]
theorem declared_addSubclass {inj : Injector} {c : ManagedClass} :
  (p.addSubclass inj c).declared v = p.declared v
  := declared_eq_of_declarations_eq (by simp)

@[simp]
theorem declared_takeSingleton :
  (p.takeSingleton options className lazy).declared v
    = p.declared v + [p.nextSingleton options].count v
  := by
  simp [declared, takeSingleton]

/-- An object is held in a variable that was given, or in one that is declared for it. -/
theorem declared_hold {target : Option String} :
  (p.hold options target).declared v + target.toList.count v
    = p.declared v + [p.holder options target].count v
  := by
  cases target with
  | some target => rfl
  | none => simp [declared, hold, holder, takeTemporary]

theorem assignments_eq_of_nodes_eq (h : q.nodes = p.nodes) :
  q.assignments v = p.assignments v
  := by
  rw [assignments, h, assignments]

theorem assignments_emit (s : PlanStatement) :
  (p.emit s).assignments v = p.assignments v + Expr.assignments v [s.value]
  := by
  simp [assignments, Expr.assignments]

/-- The variable of a shared object stays that. -/
theorem spreads_sharedNames (v : String) :
  Spreads fun _ p' => v ∈ p'.sharedNames
  where
  before _ h := h
  after grows h := sharedNames_subset_of_grows grows h

namespace Tallies

theorem trans (h₁ : Tallies v given made p p₁) (h₂ : Tallies v given' made' p₁ p')
    (grows₁ : p.Grows p₁) (grows₂ : p₁.Grows p') :
  Tallies v (given + given') (made + made') p p'
  := Counts.trans h₁ h₂ (spreads_sharedNames v) grows₁ grows₂

/-- What is declared or assigned more has to be given less or more. -/
theorem congr (h : Tallies v given made q q') (nodes : q.nodes = p.nodes)
    (nodes' : p'.nodes = q'.nodes) (names' : p'.sharedNames = q'.sharedNames)
    (declarations' : p'.declarations = q'.declarations)
    (eq : made' + p.declared v + given = made + q.declared v + given') :
  Tallies v given' made' p p'
  := by
  apply Counts.congr h
  · rw [names']
    exact id
  · rw [assignments_eq_of_nodes_eq nodes, assignments_eq_of_nodes_eq nodes',
      declared_eq_of_declarations_eq declarations']
    omega

/-- An expression may be kept in a statement instead. -/
theorem emit {s : PlanStatement} (h : Tallies v given (Expr.assignments v [s.value]) p p') :
  Tallies v given 0 p (p'.emit s)
  := by
  refine Counts.congr h (fun excused => excused) ?_
  have same : (p'.emit s).declared v = p'.declared v := rfl
  rw [assignments_emit, same]
  omega

end Tallies

namespace Listed

theorem start (options : Options) :
  Progress.Listed options {}
  := List.Perm.nil

/-- Nothing but the variables matters. -/
theorem congr (h : p.Listed options) (declarations : q.declarations = p.declarations)
    (names : q.sharedNames = p.sharedNames) (temporaries : q.temporaries = p.temporaries) :
  q.Listed options
  := by
  unfold Listed temporaryNames at *
  rw [declarations, names, temporaries]
  exact h

theorem addSubclass (h : p.Listed options) (inj : Injector) (c : ManagedClass) :
  (p.addSubclass inj c).Listed options
  := by
  apply h.congr (declarations_addSubclass _ _ _) _ temporaries_addSubclass
  simp [sharedNames]

theorem takeSingleton (h : p.Listed options) :
  (p.takeSingleton options className lazy).Listed options
  := by
  have names : (p.takeSingleton options className lazy).sharedNames
      = p.sharedNames ++ [p.nextSingleton options] := by
    simp [sharedNames, Progress.takeSingleton]
  have declared : (p.takeSingleton options className lazy).declarations.toList
      = p.declarations.toList ++ [p.nextSingleton options] := by
    simp [Progress.takeSingleton]
  rw [Listed, names, declared, List.append_assoc]
  apply (h.append_right _).trans
  rw [List.append_assoc]
  exact List.perm_append_comm.append_left _

theorem hold (h : p.Listed options) (target : Option String) :
  (p.hold options target).Listed options
  := by
  cases target with
  | some target => exact h
  | none =>
      have names : (p.takeTemporary options).temporaryNames options
          = p.temporaryNames options ++ [p.nextTemporary options] := by
        simp [temporaryNames, takeTemporary, List.range_succ, nextTemporary]
      have declared : (p.takeTemporary options).declarations.toList
          = p.declarations.toList ++ [p.nextTemporary options] := by
        simp [takeTemporary]
      have same : (p.takeTemporary options).sharedNames = p.sharedNames := rfl
      rw [Listed, Progress.hold, names, declared, same, ← List.append_assoc]
      exact h.append_right _

end Listed

section

variable {inj : Injector} (valid : p.Valid inj) (apart : inj.options.PrefixesApart)

include valid apart

theorem not_mem_sharedNames (n : Nat) :
  inj.options.instancePrefix ++ toString n ∉ p.sharedNames
  := by
  intro shared
  rw [sharedNames, valid.names] at shared
  obtain ⟨i, -, name⟩ := List.mem_map.mp shared
  exact apart.ne i n name

/-- No variable is declared twice. -/
theorem Listed.nodup (h : p.Listed inj.options) :
  p.declarations.toList.Nodup
  := by
  apply h.nodup_iff.mpr
  apply List.nodup_append.mpr
  refine ⟨valid.nodup_names, ?_, ?_⟩
  · apply List.nodup_range.map
    intro m n
    apply Valid.number_inj
  · rintro a shared b temporary rfl
    obtain ⟨n, -, rfl⟩ := List.mem_map.mp temporary
    exact not_mem_sharedNames valid apart n shared

/-- What is declared of the names of temporaries are those that have been taken. -/
theorem Listed.lt_temporaries (h : p.Listed inj.options) {n : Nat}
    (declared : inj.options.instancePrefix ++ toString n ∈ p.declarations.toList) :
  n < p.temporaries
  := by
  obtain shared | temporary := List.mem_append.mp (h.mem_iff.mp declared)
  · exact absurd shared (not_mem_sharedNames valid apart n)
  · obtain ⟨m, taken, name⟩ := List.mem_map.mp temporary
    obtain rfl : m = n := Valid.number_inj name
    simpa using taken

end

end Progress

namespace Injector

open Progress

variable {inj : Injector} {site : Site} {task : Task} {p p' q : Progress} {es : List Expr}
  {v : String} {errands : List Errand}

/-- The bound values assign nothing. -/
def AssignFree (inj : Injector) : Prop :=
  ∀ b ∈ inj.bindings, ∀ e, b.binding.source = .value e →
    ∀ target value, .assign target value ∉ e.visited

theorem AssignFree.assignments_eq (values : inj.AssignFree) {e : Expr}
    (bound : ∃ b ∈ inj.bindings, b.binding.source = .value e) :
  Expr.assignments v [e] = 0
  := by
  obtain ⟨b, member, source⟩ := bound
  by_contra some
  obtain ⟨value, inside⟩ := Expr.exists_assign_mem_iff.mpr some
  apply values b member e source v value
  simpa using inside

/-- How often the task itself is to assign the variable, which has been declared before. -/
def given (v : String) : Task → Nat
  | .creation _ target => target.toList.count v
  | _ => 0

/-- Every variable that resolution takes is assigned by what it is taken for. -/
theorem Resolves.tallies (values : inj.AssignFree) (h : inj.Resolves site task p es p') :
  Tallies v (given v task) (Expr.assignments v es) p p'
  := by
  induction h with
  | value bound =>
      rw [values.assignments_eq bound]
      apply Counts.refl
  | absent => exact Tallies.congr (Counts.refl _) rfl rfl rfl rfl rfl
  | cyclicObject _ _ => exact Tallies.congr (Counts.refl _) rfl rfl rfl rfl rfl
  | held _ _ _ _ =>
      apply Tallies.congr (Counts.refl _) rfl (by simp) (by simp [sharedNames]) (by simp)
      rfl
  | @heldLazily _ c p s e p' _ _ held _ creation ih =>
      -- the object is constructed again, so its variable is assigned again
      obtain ⟨again, tally, shared⟩ := ih
      use again + [s.name].count v
      have nodes : (p'.setLazy c.name p'.isDeferred).assignments v = p'.assignments v := rfl
      have declared : (p'.setLazy c.name p'.isDeferred).declared v = p'.declared v := rfl
      rw [assignments_eq_of_nodes_eq nodes_addSubclass, declared_addSubclass] at tally
      simp only [given, Option.toList_some] at tally
      constructor
      · simp only [nodes, declared, given, Expr.assignments_once]
        omega
      · intro ne
        rw [sharedNames_setLazy]
        by_cases name : s.name = v
        · apply sharedNames_subset_of_grows ((grows_addSubclass inj c p).trans creation.grows)
          rw [← name]
          exact List.mem_map_of_mem (Valid.mem_of_singleton? held)
        · apply shared
          simpa [List.count_singleton, name] using ne
  | prototype _ _ _ _ _ ih => exact ih.congr (by simp) rfl rfl rfl (by simp [given])
  | singleton _ _ _ _ _ ih =>
      apply ih.congr (by simp) rfl rfl rfl
      simp [given, Nat.add_assoc]
  | eagerSingleton _ _ _ _ _ ih =>
      apply Tallies.emit
      apply ih.congr (by simp) rfl rfl rfl
      simp [given, PlanStatement.value, Nat.add_assoc]
  | provided _ ih => exact ih
  | providerFunction _ ih =>
      apply ih.congr (by simp) (by simp) rfl rfl
      rw [Expr.assignments_delayed]
      rfl
  | cyclicCall _ _ _ => exact Tallies.congr (Counts.refl _) rfl rfl rfl rfl rfl
  | call _ _ _ _ ih => exact ih.congr rfl rfl rfl rfl (by simp [given])
  | creation _ _ _ ih =>
      apply ih.congr rfl rfl rfl rfl
      rw [Expr.assignments_assignedTo]
      simp only [given]
      omega
  | @creationWithSetters _ c target _ args p₁ calls p' _ _ parameters setters ih₁ ih₂ =>
      -- what holds the object has been given, or else it is declared before the setters are called
      have hold : (p₁.hold inj.options target).declared v + target.toList.count v
          = p₁.declared v + [p₁.holder inj.options target].count v := declared_hold
      have setUp : Tallies v (target.toList.count v)
          (Expr.assignments v calls + [p₁.holder inj.options target].count v) p₁ p' := by
        apply ih₂.congr nodes_hold rfl rfl rfl
        simp only [given]
        omega
      have grows : p₁.Grows p' := (grows_hold _ _ _).trans setters.grows
      apply (Tallies.trans ih₁ setUp parameters.grows grows).congr rfl rfl rfl rfl
      simp only [List.cons_append, Expr.assignments_withSetters, given]
      omega
  | noParameters => apply Counts.refl
  | parameter first rest ih₁ ih₂ =>
      rw [Expr.assignments_cons]
      exact Tallies.trans ih₁ ih₂ first.grows rest.grows
  | noSetters => apply Counts.refl
  | setter first rest ih₁ ih₂ =>
      rw [Expr.assignments_cons, Expr.assignments_callMember]
      exact Tallies.trans ih₁ ih₂ first.grows rest.grows

/-- Resolution lists the variables that it takes. -/
theorem Resolves.listed (h : inj.Resolves site task p es p') (listed : p.Listed inj.options) :
  p'.Listed inj.options
  := by
  induction h with
  | held _ _ _ _ => exact listed.addSubclass inj _
  | heldLazily _ _ _ _ _ ih => exact (ih (listed.addSubclass inj _)).congr rfl (by simp) rfl
  | prototype _ _ _ _ _ ih => exact ih (listed.addSubclass inj _)
  | singleton _ _ _ _ _ ih =>
      apply ih
      exact (listed.addSubclass inj _).takeSingleton
  | eagerSingleton _ _ _ _ _ ih =>
      exact (ih (listed.addSubclass inj _).takeSingleton).congr rfl rfl rfl
  | provided _ ih => exact ih listed
  | providerFunction _ ih => exact (ih (listed.congr rfl rfl rfl)).congr rfl rfl rfl
  | call _ _ _ _ ih => exact ih listed
  | creation _ _ _ ih => exact ih listed
  | creationWithSetters _ _ _ _ ih₁ ih₂ => exact ih₂ ((ih₁ listed).hold _)
  | parameter _ _ ih₁ ih₂ => exact ih₂ (ih₁ listed)
  | setter _ _ ih₁ ih₂ => exact ih₂ (ih₁ listed)
  | absent => exact listed.congr rfl rfl rfl
  | cyclicObject _ _ => exact listed.congr rfl rfl rfl
  | cyclicCall _ _ _ => exact listed.congr rfl rfl rfl
  | _ => exact listed

/-! ### Sequences of setter calls -/

/-- The expression calls the setter on what the variable holds. -/
def CallsSetter (v setter : String) (call : Expr) : Prop :=
  ∃ args, call = .call (.member (.name v) setter) args

/-- The expression constructs an object of a class with setters, holds it in the variable, and calls
the setters of the class on it. -/
inductive SetsUp (inj : Injector) (v : String) : Expr → Prop where
  | sequence {c args calls}
    (declared : inj.class? c.name = some c) (setters : c.decl.setters ≠ [])
    (called : List.Forall₂ (CallsSetter v) c.decl.setters calls) :
    SetsUp inj v (.sequence (.assign v (.new (inj.constructedName c) args) :: calls ++ [.name v]))

/-- Setters are called one after the other. -/
theorem Resolves.forall₂_calls {c : ManagedClass} {names : List String}
    (h : inj.Resolves site (.setters c v names) p es p') :
  List.Forall₂ (CallsSetter v) names es
  := by
  induction names generalizing p es with
  | nil =>
      cases h
      exact .nil
  | cons name names ih =>
      cases h with
      | setter _ rest => exact .cons ⟨_, rfl⟩ (ih rest)

end Injector

namespace Progress

/-- For every temporary that has been taken between the two progresses there is a sequence among the
nodes. -/
def Sequences (inj : Injector) (nodes : List Expr) (p p' : Progress) : Prop :=
  ∀ n, p.temporaries ≤ n → n < p'.temporaries →
    ∃ e ∈ nodes, inj.SetsUp (inj.options.instancePrefix ++ toString n) e

namespace Sequences

variable {inj : Injector} {nodes nodes' : List Expr} {p p₁ p' q q' : Progress}

theorem of_eq (h : p'.temporaries = p.temporaries) :
  Sequences inj nodes p p'
  := by
  intro n le lt
  omega

theorem mono (h : Sequences inj nodes q q') (subset : nodes ⊆ nodes')
    (before : q.temporaries = p.temporaries) (after : p'.temporaries = q'.temporaries) :
  Sequences inj nodes' p p'
  := by
  intro n le lt
  obtain ⟨e, member, setsUp⟩ := h n (by omega) (by omega)
  use e, subset member

theorem trans (h₁ : Sequences inj nodes p p₁) (h₂ : Sequences inj nodes p₁ p') :
  Sequences inj nodes p p'
  := by
  intro n le lt
  by_cases early : n < p₁.temporaries
  · exact h₁ n le early
  · exact h₂ n (by omega) lt

end Sequences

end Progress

namespace Injector

open Progress

variable {inj : Injector} {site : Site} {task : Task} {p p' q : Progress} {es : List Expr}
  {v : String} {errands : List Errand}

/-- An object that no variable was given for is held in a temporary while its setters are called. -/
theorem SetsUp.sequences_hold {nodes : List Expr} {target : Option String} {e : Expr}
    (setsUp : inj.SetsUp (p.holder inj.options target) e) (member : e ∈ nodes) :
  Sequences inj nodes p (p.hold inj.options target)
  := by
  cases target with
  | some target => exact Sequences.of_eq rfl
  | none =>
      intro n le lt
      obtain rfl : n = p.temporaries := Nat.le_antisymm (Nat.le_of_lt_succ lt) le
      use e, member, setsUp

/-- Whatever temporary resolution takes holds an object while its setters are called. -/
theorem Resolves.sequences (h : inj.Resolves site task p es p') :
  Sequences inj (Expr.visitedAll es ++ p'.nodes) p p'
  := by
  induction h with
  | held _ _ _ _ => apply Sequences.of_eq temporaries_addSubclass
  | heldLazily _ _ _ _ _ ih =>
      apply ih.mono _ temporaries_addSubclass rfl
      simp +contextual [List.subset_def, Expr.once, Expr.visited]
  | prototype _ _ _ _ _ ih => exact ih.mono (List.Subset.refl _) temporaries_addSubclass rfl
  | singleton _ _ _ _ _ ih =>
      apply ih.mono _ temporaries_addSubclass rfl
      simp +contextual [List.subset_def, Expr.once, Expr.visited]
  | eagerSingleton _ _ _ _ _ ih =>
      apply ih.mono _ temporaries_addSubclass rfl
      simp +contextual [List.subset_def, PlanStatement.value, or_comm]
  | provided _ ih => exact ih
  | providerFunction _ ih =>
      apply ih.mono _ rfl rfl
      simp +contextual [List.subset_def, Expr.delayed, Expr.visited, Stmt.visitedAll, Stmt.visited]
  | call _ _ _ _ ih =>
      apply ih.mono _ rfl rfl
      simp +contextual [List.subset_def, Expr.visited]
  | @creation _ _ target _ _ _ _ _ _ ih =>
      apply ih.mono _ rfl rfl
      cases target <;> simp +contextual [List.subset_def, Expr.assignedTo, Expr.visited]
  | @creationWithSetters _ c target _ args p₁ calls p' declared nonempty _ setters ih₁ ih₂ =>
      have grows : p₁.nodes ⊆ p'.nodes :=
        nodes_subset_of_grows ((grows_hold _ _ _).trans setters.grows)
      have setsUp : inj.SetsUp (p₁.holder inj.options target) (.sequence
          (.assign (p₁.holder inj.options target) (.new (inj.constructedName c) args) :: calls
            ++ [.name (p₁.holder inj.options target)])) :=
        .sequence declared nonempty setters.forall₂_calls
      apply (ih₁.mono _ rfl rfl).trans
      · apply (setsUp.sequences_hold _).trans (ih₂.mono _ rfl rfl)
        · simp [Expr.visited]
        · simp +contextual [List.subset_def, Expr.visited, or_imp]
      · simp +contextual [List.subset_def, Expr.visited, or_imp, @grows _]
  | @parameter _ _ _ _ e p₁ es p' _ rest ih₁ ih₂ =>
      have grows : p₁.nodes ⊆ p'.nodes := nodes_subset_of_grows rest.grows
      apply (ih₁.mono _ rfl rfl).trans (ih₂.mono _ rfl rfl)
      · simp +contextual [List.subset_def, or_imp, @grows _]
      · simp +contextual [List.subset_def]
  | @setter _ _ _ _ _ _ _ p₁ _ p' _ rest ih₁ ih₂ =>
      have grows : p₁.nodes ⊆ p'.nodes := nodes_subset_of_grows rest.grows
      apply (ih₁.mono _ rfl rfl).trans (ih₂.mono _ rfl rfl)
      · simp +contextual [List.subset_def, Expr.visited, or_imp, @grows _]
      · simp +contextual [List.subset_def, Expr.visited]
  | _ => exact Sequences.of_eq rfl

/-! ### Whole runs -/

theorem Serves.listed (h : inj.Serves errands p q) (listed : p.Listed inj.options) :
  q.Listed inj.options
  := by
  induction h with
  | nil => exact listed
  | @cons errand _ _ _ _ _ first _ ih =>
      apply ih
      cases errand with
      | construct location c => exact first.listed listed
      | answer request => exact (first.listed listed).congr rfl rfl rfl

/-- What balances for every errand balances for all of them. -/
theorem Serves.counts {made taken : Progress → Nat} {excuse : Progress → Progress → Prop}
    {P : Progress → Prop} (spreads : Spreads excuse) (h : inj.Serves errands p q) (start : P p)
    (each : ∀ errand ∈ errands, ∀ {p e p'}, P p → (errand.finish e p').Grows q →
      inj.Resolves ⟨errand.location, []⟩ (.dependency (errand.dependency inj)) p [e] p' →
      P (errand.finish e p') ∧ Counts made taken excuse 0 0 p (errand.finish e p')) :
  Counts made taken excuse 0 0 p q
  := by
  induction h with
  | nil => apply Counts.refl
  | cons first rest ih =>
      obtain ⟨next, counts⟩ := each _ List.mem_cons_self start rest.grows first
      have later := ih next fun errand member => each errand (List.mem_cons_of_mem _ member)
      exact counts.trans later spreads (first.grows.trans (Errand.grows_finish _ _ _)) rest.grows

/-- Errands assign as many variables as they declare, and some shared objects yet again. -/
theorem Serves.tallies (values : inj.AssignFree) (h : inj.Serves errands p q) (valid : p.Valid inj)
    (sound : ∀ errand ∈ errands, errand.Sound inj) :
  Tallies v 0 0 p q
  := by
  apply h.counts (spreads_sharedNames v) valid
  intro errand member p e p' valid _ first
  use Errand.valid_finish (first.valid valid)
  have tallies := first.tallies values (v := v)
  cases errand with
  | construct location c =>
      obtain ⟨name, eq⟩ := first.name_of_eager valid (sound _ member location c rfl).2
      rw [eq, Expr.assignments_name] at tallies
      exact tallies
  | answer request => exact tallies.emit

/-- Whatever temporary the errands take holds an object while its setters are called. -/
theorem Serves.sequences (h : inj.Serves errands p q) (valid : p.Valid inj)
    (sound : ∀ errand ∈ errands, errand.Sound inj) :
  Sequences inj q.nodes p q
  := by
  induction h with
  | nil => exact Sequences.of_eq rfl
  | @cons errand errands p e p' q first rest ih =>
      have later := ih (Errand.valid_finish (first.valid valid)) fun errand member =>
        sound errand (List.mem_cons_of_mem _ member)
      have grows : p'.nodes ⊆ q.nodes :=
        nodes_subset_of_grows ((errand.grows_finish e p').trans rest.grows)
      apply Sequences.trans _ later
      cases errand with
      | construct location c =>
          obtain ⟨name, eq⟩ := first.name_of_eager valid
            (sound _ List.mem_cons_self location c rfl).2
          obtain rfl := List.singleton_inj.mp eq
          intro n le lt
          obtain ⟨e, member, setsUp⟩ := first.sequences n le lt
          -- a sequence is not the name that the errand drops
          obtain member | member := List.mem_append.mp member
          · simp only [Expr.visitedAll_cons, Expr.visited_name, Expr.visitedAll_nil,
              List.append_nil, List.mem_singleton] at member
            cases setsUp
            cases member
          · use e, grows member
      | answer request =>
          apply first.sequences.mono _ rfl rfl
          apply List.append_subset.mpr
          refine ⟨?_, grows⟩
          have emitted : (p'.emit (.answer request e)).nodes ⊆ q.nodes :=
            nodes_subset_of_grows rest.grows
          rw [nodes_emit] at emitted
          simpa [PlanStatement.value] using List.Subset.trans (List.subset_append_right _ _) emitted

end Injector

namespace Catalog

open Injector Progress

/-- Where cycles are looked for, the prefixes keep the variables apart, and no bound value assigns
anything, no variable of a plan is declared twice, and what is declared is what is assigned. A
temporary is assigned once, as the head of the sequence that calls the setters of its object. -/
theorem declared_once [Dialect] (catalog : Catalog) (options : Options) (entry : EntryPoint)
    (cycles : options.detectCycles = true) (apart : options.PrefixesApart)
    (values : (catalog.injector options entry).AssignFree) :
  let plan := (catalog.planEntry options entry).value
  plan.declarations.Nodup
    ∧ (∀ v, v ∈ plan.declarations ↔ ∃ value, .assign v value ∈ plan.nodes)
    ∧ ∀ n : Nat, options.instancePrefix ++ toString n ∈ plan.declarations →
      plan.nodes.countP (Expr.assigns (options.instancePrefix ++ toString n)) = 1
        ∧ ∃ e ∈ plan.nodes,
          (catalog.injector options entry).SetsUp (options.instancePrefix ++ toString n) e
  := by
  intro plan
  have serves := serves_errands catalog entry cycles
  have valid := valid_progress catalog entry cycles
  have listed : (catalog.progress options entry).Listed options := serves.listed (.start _)
  have nodup : plan.declarations.Nodup := listed.nodup valid apart
  have tally (v : String) : ∃ again,
      plan.nodes.countP (Expr.assigns v) = plan.declarations.count v + again
        ∧ (again ≠ 0 → v ∈ (catalog.progress options entry).sharedNames) := by
    obtain ⟨again, tally, shared⟩ :=
      serves.tallies values (.start _) (fun _ => sound_of_mem_errands) (v := v)
    have before : ({} : Progress).assignments v = 0 ∧ ({} : Progress).declared v = 0 := ⟨rfl, rfl⟩
    use again
    refine ⟨?_, shared⟩
    simp only [before, Nat.zero_add, Nat.add_zero] at tally
    exact tally
  refine ⟨nodup, fun v => ?_, fun n declared => ?_⟩
  · obtain ⟨again, tally, shared⟩ := tally v
    rw [Expr.exists_assign_mem_iff, tally, ← List.count_pos_iff]
    constructor
    · omega
    · intro assigned
      by_cases none : again = 0
      · omega
      · apply List.count_pos_iff.mpr
        apply listed.mem_iff.mpr
        exact List.mem_append_left _ (shared none)
  · obtain ⟨again, tally, shared⟩ := tally (options.instancePrefix ++ toString n)
    have none : again = 0 := by
      by_contra some
      exact not_mem_sharedNames valid apart n (shared some)
    constructor
    · rw [tally, none, List.count_eq_one_of_mem nodup declared]
    · apply serves.sequences (.start _) (fun _ => sound_of_mem_errands) n (Nat.zero_le n)
      exact listed.lt_temporaries valid apart declared

/-- The default prefixes keep the variables apart. -/
theorem prefixesApart_default :
  ({} : Options).PrefixesApart
  := by
  intro digits _
  constructor
  all_goals
    intro eq
    have letters := congrArg (·.toList.head?) eq
    simp at letters

/-- A band with a drummer, whose drum is tuned, and a singer, who takes a microphone. The band is
handed a function that calls for the drummer, and the singer calls for the drummer at once. -/
def concert : Catalog where
  classes :=
    [ { name := "Band", params := ["beatProvider", "singer"] },
      { name := "Singer"
        params := ["beat"]
        methods := [{ name := "take", params := ["microphone"] }]
        setters := ["take"] },
      { name := "Drummer", methods := [{ name := "tune" }], setters := ["tune"] } ]
  modules :=
    [ { name := "Stage"
        bindings :=
          [ { key := "beat", source := .provider ["drummer"] },
            { key := "drummer", source := .type "Drummer", scope := some .singleton },
            { key := "singer", source := .type "Singer" },
            { key := "microphone", source := .value (.str "wireless") } ] } ]

/-- The band is asked for twice. -/
def encore : EntryPoint where
  name := "encore"
  modules := ["Stage"]
  requests := [⟨.ofClass "Band", {}⟩, ⟨.ofClass "Band", {}⟩]

/-- There is one drummer, who is constructed in two places, and each of the two singers takes a
microphone in one place. -/
theorem declared_once_concert :
  ({} : Options).detectCycles = true ∧ ({} : Options).PrefixesApart
    ∧ (concert.injector {} encore).AssignFree
    ∧ (concert.planEntry {} encore).value.declarations
      = ["singletonInstance0", "instance$0", "instance$1"]
    ∧ (concert.planEntry {} encore).value.nodes.countP (Expr.assigns "singletonInstance0") = 2
    ∧ (concert.planEntry {} encore).value.nodes.countP (Expr.assigns "instance$1") = 1
  := by
  have values : (concert.injector {} encore).AssignFree := by
    have bindings : ∀ b ∈ (concert.injector {} encore).bindings, b.binding.kind = .toInstance →
        b.binding.source = .value (.str "wireless") := by
      decide +kernel
    intro b member e source target value inside
    have bound := bindings b member (by rw [Binding.kind, source])
    obtain rfl := Source.value.inj (source.symm.trans bound)
    simp [Expr.visited] at inside
  have declarations : (concert.planEntry {} encore).value.declarations
      = ["singletonInstance0", "instance$0", "instance$1"] := by
    rw [planEntry, ofEntry_eq]
    decide +kernel
  obtain ⟨-, -, temporaries⟩ :=
    declared_once concert {} encore rfl prefixesApart_default values
  refine ⟨rfl, prefixesApart_default, values, declarations, ?_, ?_⟩
  · rw [planEntry, ofEntry_eq]
    decide +kernel
  · apply (temporaries 1 _).1
    rw [declarations]
    decide

end Catalog

end Wiring
