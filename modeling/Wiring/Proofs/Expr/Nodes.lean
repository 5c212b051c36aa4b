import Wiring.Proofs.Resolution.Derivation

/-!
# The expressions of a plan

All expressions inside the statements of a plan, those in the bodies of functions included, and how
they are made up for what resolution builds.
-/

namespace Wiring

/-- All expressions inside the statements of a plan. -/
def Plan.nodes (plan : Plan) : List Expr :=
  plan.statements.flatMap (·.value.visited)

/-- All expressions inside the statements that have been emitted. -/
def Progress.nodes (p : Progress) : List Expr :=
  p.statements.toList.flatMap (·.value.visited)

namespace Progress

variable {p q : Progress} {className : String} {lazy : Bool} {options : Options}

@[simp]
theorem nodes_emit (s : PlanStatement) (p : Progress) :
  (p.emit s).nodes = p.nodes ++ s.value.visited
  := by
  simp [nodes, emit]

theorem nodes_eq_of_statements_eq (h : q.statements = p.statements) :
  q.nodes = p.nodes
  := by
  rw [nodes, h, nodes]

@[simp]
theorem nodes_addSubclass {inj : Injector} {c : ManagedClass} :
  (p.addSubclass inj c).nodes = p.nodes
  := nodes_eq_of_statements_eq (by simp)

@[simp]
theorem nodes_takeSingleton :
  (p.takeSingleton options className lazy).nodes = p.nodes
  := rfl

@[simp]
theorem nodes_setLazy :
  (p.setLazy className lazy).nodes = p.nodes
  := rfl

@[simp]
theorem nodes_hold {target : Option String} :
  (p.hold options target).nodes = p.nodes
  := by
  cases target <;> rfl

@[simp]
theorem nodes_defer :
  p.defer.nodes = p.nodes
  := rfl

@[simp]
theorem nodes_resume :
  p.resume.nodes = p.nodes
  := rfl

@[simp]
theorem nodes_report {problem : Problem} {location : Location} :
  (p.report problem location).nodes = p.nodes
  := rfl

end Progress

namespace Expr

@[simp]
theorem visitedAll_nil :
  visitedAll [] = []
  := rfl

@[simp]
theorem visitedAll_cons (e : Expr) (es : List Expr) :
  visitedAll (e :: es) = e.visited ++ visitedAll es
  := rfl

@[simp]
theorem visitedAll_append (xs ys : List Expr) :
  visitedAll (xs ++ ys) = visitedAll xs ++ visitedAll ys
  := by
  induction xs with
  | nil => rfl
  | cons x xs ih => simp [ih]

@[simp]
theorem visited_null :
  visited .null = [.null]
  := rfl

@[simp]
theorem visited_name (name : String) :
  visited (.name name) = [.name name]
  := rfl

@[simp]
theorem visited_new (className : String) (args : List Expr) :
  visited (.new className args) = .new className args :: visitedAll args
  := rfl

variable {f : Expr}

mutual

/-- What is inside an expression has everything inside that is inside of it. -/
theorem visited_subset (e : Expr) (inside : f ∈ e.visited) :
  f.visited ⊆ e.visited
  := by
  cases e with
  | member object property =>
      obtain rfl | inside := List.mem_cons.mp inside
      · exact List.Subset.refl _
      · exact List.subset_cons_of_subset _ (visited_subset object inside)
  | new className args =>
      obtain rfl | inside := List.mem_cons.mp inside
      · exact List.Subset.refl _
      · exact List.subset_cons_of_subset _ (visited_subset_all args inside)
  | call callee args =>
      simp only [visited, List.mem_cons, List.mem_append] at inside
      obtain rfl | inside | inside := inside
      · exact List.Subset.refl _
      · apply List.subset_cons_of_subset
        exact List.subset_append_of_subset_left _ (visited_subset callee inside)
      · apply List.subset_cons_of_subset
        exact List.subset_append_of_subset_right _ (visited_subset_all args inside)
  | assign target value =>
      obtain rfl | inside := List.mem_cons.mp inside
      · exact List.Subset.refl _
      · exact List.subset_cons_of_subset _ (visited_subset value inside)
  | sequence items =>
      obtain rfl | inside := List.mem_cons.mp inside
      · exact List.Subset.refl _
      · exact List.subset_cons_of_subset _ (visited_subset_all items inside)
  | conditional test consequent alternate =>
      simp only [visited, List.mem_cons, List.mem_append] at inside
      obtain rfl | (inside | inside) | inside := inside
      · exact List.Subset.refl _
      · apply List.subset_cons_of_subset
        apply List.subset_append_of_subset_left
        exact List.subset_append_of_subset_left _ (visited_subset test inside)
      · apply List.subset_cons_of_subset
        apply List.subset_append_of_subset_left
        exact List.subset_append_of_subset_right _ (visited_subset consequent inside)
      · apply List.subset_cons_of_subset
        exact List.subset_append_of_subset_right _ (visited_subset alternate inside)
  | and left right =>
      simp only [visited, List.mem_cons, List.mem_append] at inside
      obtain rfl | inside | inside := inside
      · exact List.Subset.refl _
      · apply List.subset_cons_of_subset
        exact List.subset_append_of_subset_left _ (visited_subset left inside)
      · apply List.subset_cons_of_subset
        exact List.subset_append_of_subset_right _ (visited_subset right inside)
  | function params body =>
      obtain rfl | inside := List.mem_cons.mp inside
      · exact List.Subset.refl _
      · exact List.subset_cons_of_subset _ (visited_subset_body body inside)
  | _ =>
      obtain rfl := List.mem_singleton.mp inside
      exact List.Subset.refl _

theorem visited_subset_all (es : List Expr) (inside : f ∈ visitedAll es) :
  f.visited ⊆ visitedAll es
  := by
  cases es with
  | nil => cases inside
  | cons e es =>
      obtain inside | inside := List.mem_append.mp inside
      · exact List.subset_append_of_subset_left _ (visited_subset e inside)
      · exact List.subset_append_of_subset_right _ (visited_subset_all es inside)

theorem visited_subset_body (body : List Stmt) (inside : f ∈ Stmt.visitedAll body) :
  f.visited ⊆ Stmt.visitedAll body
  := by
  cases body with
  | nil => cases inside
  | cons s body =>
      obtain inside | inside := List.mem_append.mp inside
      · apply List.subset_append_of_subset_left
        cases s with
        | declare name value => exact visited_subset value inside
        | evaluate value => exact visited_subset value inside
        | result value => exact visited_subset value inside
      · exact List.subset_append_of_subset_right _ (visited_subset_body body inside)

end

end Expr

end Wiring
