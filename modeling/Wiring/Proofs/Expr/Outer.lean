import Wiring.Proofs.Resolution.Hoisting

/-!
# Outside of functions

The expressions inside an expression that are not inside the body of a function are evaluated with
it. This module lists them and counts the assignments among them, for what resolution builds and
for the statements of a plan.
-/

namespace Wiring

mutual

/-- An expression and the expressions inside it, up to the bodies of functions. -/
def Expr.outer : Expr → List Expr
  | .member object property => .member object property :: object.outer
  | .new className args => .new className args :: Expr.outerAll args
  | .call callee args => .call callee args :: (callee.outer ++ Expr.outerAll args)
  | .assign target value => .assign target value :: value.outer
  | .sequence items => .sequence items :: Expr.outerAll items
  | .conditional test consequent alternate =>
    .conditional test consequent alternate ::
      (test.outer ++ consequent.outer ++ alternate.outer)
  | .and left right => .and left right :: (left.outer ++ right.outer)
  | e => [e]

/-- The expressions of a list outside of functions, one after the other. -/
def Expr.outerAll : List Expr → List Expr
  | [] => []
  | e :: rest => e.outer ++ Expr.outerAll rest

end

/-- The expressions of a plan that are not inside the bodies of functions. -/
def Plan.outer (plan : Plan) : List Expr :=
  plan.statements.flatMap (·.value.outer)

namespace Expr

/-- The number of assignments to the variable outside of functions. -/
def outerAssignments (v : String) (es : List Expr) : Nat :=
  (outerAll es).countP (assigns v)

variable {v : String}

@[simp]
theorem outerAll_nil :
  outerAll [] = []
  := rfl

@[simp]
theorem outerAll_cons (e : Expr) (es : List Expr) :
  outerAll (e :: es) = e.outer ++ outerAll es
  := rfl

@[simp]
theorem outerAll_append (xs ys : List Expr) :
  outerAll (xs ++ ys) = outerAll xs ++ outerAll ys
  := by
  induction xs with
  | nil => rfl
  | cons x xs ih => simp [ih]

mutual

/-- What is outside of functions is inside the expression. -/
theorem outer_sublist_visited :
  (e : Expr) → e.outer.Sublist e.visited
  | .member object _ => (outer_sublist_visited object).cons_cons _
  | .new _ args => (outerAll_sublist_visitedAll args).cons_cons _
  | .call callee args =>
      ((outer_sublist_visited callee).append (outerAll_sublist_visitedAll args)).cons_cons _
  | .assign _ value => (outer_sublist_visited value).cons_cons _
  | .sequence items => (outerAll_sublist_visitedAll items).cons_cons _
  | .conditional test consequent alternate =>
      (((outer_sublist_visited test).append (outer_sublist_visited consequent)).append
        (outer_sublist_visited alternate)).cons_cons _
  | .and left right =>
      ((outer_sublist_visited left).append (outer_sublist_visited right)).cons_cons _
  | .function _ _ => (List.nil_sublist _).cons_cons _
  | .null | .this | .super | .arguments | .str _ | .raw _ | .name _ => List.Sublist.refl _

theorem outerAll_sublist_visitedAll :
  (es : List Expr) → (outerAll es).Sublist (visitedAll es)
  | [] => List.Sublist.refl _
  | e :: es => (outer_sublist_visited e).append (outerAll_sublist_visitedAll es)

end

@[simp]
theorem outerAssignments_nil :
  outerAssignments v [] = 0
  := rfl

theorem outerAssignments_cons (e : Expr) (es : List Expr) :
  outerAssignments v (e :: es) = outerAssignments v [e] + outerAssignments v es
  := by
  simp [outerAssignments]

@[simp]
theorem outerAssignments_null :
  outerAssignments v [.null] = 0
  := rfl

@[simp]
theorem outerAssignments_name (name : String) :
  outerAssignments v [.name name] = 0
  := rfl

@[simp]
theorem outerAssignments_once (target : String) (e : Expr) :
  outerAssignments v [.once target e] = outerAssignments v [e]
  := by
  simp [outerAssignments, once, outer, assigns]

@[simp]
theorem outerAssignments_delayed (e : Expr) :
  outerAssignments v [.delayed e] = 0
  := rfl

@[simp]
theorem outerAssignments_callMember (object property : String) (args : List Expr) :
  outerAssignments v [.call (.member (.name object) property) args] = outerAssignments v args
  := by
  simp [outerAssignments, outer, assigns]

@[simp]
theorem outerAssignments_assignedTo (target : Option String) (className : String)
    (args : List Expr) :
  outerAssignments v [.assignedTo target (.new className args)]
    = outerAssignments v args + target.toList.count v
  := by
  cases target <;>
    simp [outerAssignments, assignedTo, outer, assigns, List.countP_cons, List.count_singleton]

@[simp]
theorem outerAssignments_withSetters (target className : String) (args calls : List Expr) :
  outerAssignments v
      [.sequence (.assign target (.new className args) :: (calls ++ [.name target]))]
    = outerAssignments v args + outerAssignments v calls + [target].count v
  := by
  simp [outerAssignments, outer, assigns, List.countP_cons, List.count_singleton]

/-- What is assigned nowhere is not assigned outside of functions. -/
theorem outerAssignments_le (es : List Expr) :
  outerAssignments v es ≤ assignments v es
  := (outerAll_sublist_visitedAll es).countP_le

end Expr

/-! ### Statements -/

namespace Progress

/-- The expressions in the statements that are not inside the bodies of functions. -/
def outer (p : Progress) : List Expr :=
  p.statements.toList.flatMap (·.value.outer)

/-- The number of assignments to the variable in the statements, outside of functions. -/
def outerAssignments (v : String) (p : Progress) : Nat :=
  p.outer.countP (Expr.assigns v)

/-- One if the class holds a variable that is not lazy. -/
def settledCount (className : String) (p : Progress) : Nat :=
  (p.singleton? className).toList.countP fun s => !s.lazy

/-- The number of what is evaluated together with the statement that resolution is working for. -/
def evaluated (n : Nat) (p : Progress) : Nat :=
  if p.isDeferred then 0 else n

variable {p p₁ p' q q' : Progress} {v className : String} {m n : Nat}

theorem outer_eq_of_statements_eq (h : q.statements = p.statements) :
  q.outer = p.outer
  := by
  rw [outer, h, outer]

theorem outerAssignments_eq_of_statements_eq (h : q.statements = p.statements) :
  q.outerAssignments v = p.outerAssignments v
  := by
  rw [outerAssignments, outer_eq_of_statements_eq h, outerAssignments]

@[simp]
theorem outer_emit (s : PlanStatement) (p : Progress) :
  (p.emit s).outer = p.outer ++ s.value.outer
  := by
  simp [outer, emit]

theorem outerAssignments_emit (s : PlanStatement) (p : Progress) :
  (p.emit s).outerAssignments v = p.outerAssignments v + Expr.outerAssignments v [s.value]
  := by
  simp [outerAssignments, Expr.outerAssignments]

/-- What a statement assigns is assigned by the statements. -/
theorem outerAssignments_le_of_mem {s : PlanStatement} (member : s ∈ p.statements.toList) :
  Expr.outerAssignments v [s.value] ≤ p.outerAssignments v
  := by
  obtain ⟨before, after, eq⟩ := List.append_of_mem member
  simp only [outerAssignments, Expr.outerAssignments, outer, eq, List.flatMap_append,
    List.flatMap_cons, List.countP_append, Expr.outerAll_cons, Expr.outerAll_nil]
  simp
  omega

theorem settledCount_eq_of_singleton?_eq
    (h : q.singleton? className = p.singleton? className) :
  q.settledCount className = p.settledCount className
  := by
  rw [settledCount, h, settledCount]

theorem settledCount_of_held {s : SingletonVariable} (held : p.singleton? className = some s) :
  p.settledCount className = if s.lazy then 0 else 1
  := by
  cases lazy : s.lazy <;> simp [settledCount, held, lazy]

/-- A variable that is lazy inside functions is settled where it is evaluated. -/
theorem settledCount_of_deferred {s : SingletonVariable} (held : q.singleton? className = some s)
    (lazy : s.lazy = p.isDeferred) :
  q.settledCount className = p.evaluated 1
  := by
  rw [settledCount_of_held held, lazy, evaluated]

theorem settledCount_of_unheld (unheld : p.singleton? className = none) :
  p.settledCount className = 0
  := by
  simp [settledCount, unheld]

theorem evaluated_add (m n : Nat) (p : Progress) :
  p.evaluated (m + n) = p.evaluated m + p.evaluated n
  := by
  unfold evaluated
  split <;> rfl

@[simp]
theorem evaluated_zero (p : Progress) :
  p.evaluated 0 = 0
  := by
  simp [evaluated]

theorem evaluated_eq_of_deferred_eq (h : q.deferred = p.deferred) (n : Nat) :
  q.evaluated n = p.evaluated n
  := by
  simp [evaluated, isDeferred, h]

end Progress

end Wiring
