import Wiring.Proofs.Resolution.Construction
import Wiring.Proofs.Resolution.Effect
import Wiring.Proofs.Resolution.Hoisting

/-!
# Functions that call providers

A parameter may ask for a provider as a function, to be called later. This module follows such
functions through the dependency graph (`Injector.NeedsLater`) and says where the functions of a
plan come from (`Serves.explains`): one that assigns a variable calls a provider.
-/

namespace Wiring

open Relation

/-! ### Functions in the dependency graph -/

namespace Injector

/-- The first step is handed a function that runs the second one. -/
inductive Delays (inj : Injector) : Step → Step → Prop where
  | constructor {className c name b params}
    (declared : inj.class? className = some c) (param : name ∈ c.decl.params)
    (function : inj.parameter name = .providerFunction b params) :
    Delays inj (.ofClass className) (.ofProvider b.binding.key)
  | setter {className c setter name b params}
    (declared : inj.class? className = some c) (isSetter : setter ∈ c.decl.setters)
    (param : name ∈ c.decl.methodParams setter)
    (function : inj.parameter name = .providerFunction b params) :
    Delays inj (.ofClass className) (.ofProvider b.binding.key)
  | provider {key owner owned name b params}
    (bound : inj.binding? key = some owner) (source : owner.binding.source = .provider owned)
    (param : name ∈ owned) (function : inj.parameter name = .providerFunction b params) :
    Delays inj (.ofProvider key) (.ofProvider b.binding.key)

/-- The first step needs the second one from inside a function. -/
def NeedsLater (inj : Injector) (a b : Step) : Prop :=
  ∃ x y, ReflTransGen inj.Edge a x ∧ inj.Delays x y ∧ ReflTransGen inj.Edge y b

/-- The near steps need near ones only, and the far ones are what they need from inside functions,
and whatever that needs. -/
structure Closed (inj : Injector) (near far : Step → Prop) : Prop where
  edge : ∀ {a b}, near a → inj.Edge a b → near b
  farEdge : ∀ {a b}, far a → inj.Edge a b → far b
  delays : ∀ {a b}, near a → inj.Delays a b → far b

theorem closed_all (inj : Injector) :
  inj.Closed (fun _ => True) (fun _ => True)
  where
  edge _ _ := trivial
  farEdge _ _ := trivial
  delays _ _ := trivial

/-- What eager objects need, and what they need from inside functions. -/
theorem closed_eager (inj : Injector) :
  inj.Closed (fun step => ∃ outer, inj.IsEager outer ∧ ReflTransGen inj.Edge (.ofClass outer) step)
    (fun step => ∃ outer, inj.IsEager outer ∧ inj.NeedsLater (.ofClass outer) step)
  where
  edge := by
    rintro a b ⟨outer, eager, path⟩ edge
    use outer, eager, path.tail edge
  farEdge := by
    rintro a b ⟨outer, eager, x, y, path, delays, path'⟩ edge
    use outer, eager, x, y, path, delays, path'.tail edge
  delays := by
    rintro a b ⟨outer, eager, path⟩ delays
    use outer, eager, a, b, path, delays

end Injector

/-- One of the parameters leads to a function that runs the step. -/
def Injector.DelaysFor (inj : Injector) (names : List String) (step : Step) : Prop :=
  ∃ name ∈ names, ∃ b params, inj.parameter name = .providerFunction b params
    ∧ step = .ofProvider b.binding.key

/-- The steps that the task makes functions of. -/
def Task.Delays (inj : Injector) : Task → Step → Prop
  | .dependency (.providerFunction b _), step => step = .ofProvider b.binding.key
  | .parameters names, step => inj.DelaysFor names step
  | .setters c _ names, step => ∃ setter ∈ names, inj.DelaysFor (c.decl.methodParams setter) step
  | _, _ => False

/-- The task starts with near steps, inside functions with far ones too. -/
structure Task.Within (inj : Injector) (near far : Step → Prop) (p : Progress) (task : Task) :
    Prop where
  starts : ∀ step, task.Starts inj step → near step
  inside : p.isDeferred = true → ∀ step, task.Starts inj step → far step
  delays : ∀ step, task.Delays inj step → far step

namespace Task.Within

open Injector

variable {inj : Injector} {near far : Step → Prop} {p p' : Progress} {task : Task}
  {c : ManagedClass} {b : OwnedBinding} {target : Option String} {params names : List String}
  {name variableName : String}

/-- Nothing but the depth in functions matters. -/
theorem of_deferred_eq (h : task.Within inj near far p) (deferred : p'.deferred = p.deferred) :
  task.Within inj near far p'
  where
  starts := h.starts
  inside deferred' := h.inside (by simpa [Progress.isDeferred, deferred] using deferred')
  delays := h.delays

theorem creation (h : (Task.dependency (.object c)).Within inj near far p)
    (target : Option String) :
  (Task.creation c target).Within inj near far p
  where
  starts := h.starts
  inside := h.inside
  delays _ delays := by cases delays

theorem call (h : (Task.dependency (.provided b params)).Within inj near far p) :
  (Task.call b params).Within inj near far p
  where
  starts := h.starts
  inside := h.inside
  delays _ delays := by cases delays

/-- What a function calls is far. -/
theorem function (h : (Task.dependency (.providerFunction b params)).Within inj near far p) :
  (Task.call b params).Within inj near far p.defer
  where
  starts := h.starts
  inside _ := h.delays
  delays _ delays := by cases delays

section

variable (closed : inj.Closed near far)

include closed

theorem parameters (h : (Task.creation c target).Within inj near far p)
    (declared : inj.class? c.name = some c) :
  (Task.parameters c.decl.params).Within inj near far p
  where
  starts _ starts := closed.edge (h.starts _ rfl) (edge_of_parameters declared starts)
  inside deferred _ starts :=
    closed.farEdge (h.inside deferred _ rfl) (edge_of_parameters declared starts)
  delays step delays := by
    obtain ⟨name, param, b, params, function, rfl⟩ := delays
    exact closed.delays (h.starts _ rfl) (.constructor declared param function)

theorem setters (h : (Task.creation c target).Within inj near far p)
    (declared : inj.class? c.name = some c) :
  (Task.setters c variableName c.decl.setters).Within inj near far p
  where
  starts _ starts := closed.edge (h.starts _ rfl) (edge_of_setters declared starts)
  inside deferred _ starts :=
    closed.farEdge (h.inside deferred _ rfl) (edge_of_setters declared starts)
  delays step delays := by
    obtain ⟨setter, isSetter, name, param, b, params, function, rfl⟩ := delays
    exact closed.delays (h.starts _ rfl) (.setter declared isSetter param function)

theorem arguments (h : (Task.call b params).Within inj near far p)
    (bound : inj.binding? b.binding.key = some b)
    (source : b.binding.source = .provider params) :
  (Task.parameters params).Within inj near far p
  where
  starts _ starts := closed.edge (h.starts _ rfl) (edge_of_provider bound source starts)
  inside deferred _ starts :=
    closed.farEdge (h.inside deferred _ rfl) (edge_of_provider bound source starts)
  delays step delays := by
    obtain ⟨name, param, b', params', function, rfl⟩ := delays
    exact closed.delays (h.starts _ rfl) (.provider bound source param function)

end

theorem head (h : (Task.parameters (name :: names)).Within inj near far p) :
  (Task.dependency (inj.parameter name)).Within inj near far p
  where
  starts _ starts := h.starts _ (starts_parameters_cons.mpr (.inl starts))
  inside deferred _ starts := h.inside deferred _ (starts_parameters_cons.mpr (.inl starts))
  delays step delays := by
    apply h.delays
    use name, List.mem_cons_self
    cases d : inj.parameter name with
    | providerFunction b params =>
        rw [d] at delays
        exact ⟨b, params, rfl, delays⟩
    | _ =>
        rw [d] at delays
        cases delays

theorem tail (h : (Task.parameters (name :: names)).Within inj near far p) :
  (Task.parameters names).Within inj near far p
  where
  starts _ starts := h.starts _ (starts_parameters_cons.mpr (.inr starts))
  inside deferred _ starts := h.inside deferred _ (starts_parameters_cons.mpr (.inr starts))
  delays _ delays := by
    obtain ⟨other, member, delays⟩ := delays
    exact h.delays _ ⟨other, List.mem_cons_of_mem _ member, delays⟩

theorem headSetter (h : (Task.setters c variableName (name :: names)).Within inj near far p) :
  (Task.parameters (c.decl.methodParams name)).Within inj near far p
  where
  starts _ starts := h.starts _ (starts_setters_cons.mpr (.inl starts))
  inside deferred _ starts := h.inside deferred _ (starts_setters_cons.mpr (.inl starts))
  delays _ delays := h.delays _ ⟨name, List.mem_cons_self, delays⟩

theorem tailSetters (h : (Task.setters c variableName (name :: names)).Within inj near far p) :
  (Task.setters c variableName names).Within inj near far p
  where
  starts _ starts := h.starts _ (starts_setters_cons.mpr (.inr starts))
  inside deferred _ starts := h.inside deferred _ (starts_setters_cons.mpr (.inr starts))
  delays _ delays := by
    obtain ⟨setter, member, delays⟩ := delays
    exact h.delays _ ⟨setter, List.mem_cons_of_mem _ member, delays⟩

end Task.Within

/-! ### Functions of a plan -/

namespace Expr

variable {params : List String} {body : List Stmt}

@[simp]
theorem function_mem_visited_once {target : String} {e : Expr} :
  .function params body ∈ (once target e).visited ↔ .function params body ∈ e.visited
  := by
  simp [once, visited]

@[simp]
theorem function_mem_visited_delayed {e : Expr} :
  .function params body ∈ e.delayed.visited
    ↔ .function params body = e.delayed ∨ .function params body ∈ e.visited
  := by
  simp [delayed, visited, Stmt.visitedAll, Stmt.visited]

@[simp]
theorem function_mem_visited_callMember {object property : String} {es : List Expr} :
  .function params body ∈ (call (.member (.name object) property) es).visited
    ↔ .function params body ∈ visitedAll es
  := by
  simp [visited]

@[simp]
theorem function_mem_visited_assignedTo {target : Option String} {className : String}
    {es : List Expr} :
  .function params body ∈ (assignedTo target (.new className es)).visited
    ↔ .function params body ∈ visitedAll es
  := by
  cases target <;> simp [assignedTo, visited]

@[simp]
theorem function_mem_visited_withSetters {target className : String} {es calls : List Expr} :
  .function params body
      ∈ (sequence (.assign target (.new className es) :: (calls ++ [.name target]))).visited
    ↔ .function params body ∈ visitedAll es ∨ .function params body ∈ visitedAll calls
  := by
  simp [visited]

end Expr

namespace Injector

open Progress

variable {inj : Injector} {site : Site} {task : Task} {p p' q : Progress} {es : List Expr}
  {errands : List Errand} {params : List String} {body : List Stmt}

/-- The expression is a function that calls a bound provider. -/
def CallsProvider (inj : Injector) (f : Expr) : Prop :=
  ∃ b params args, inj.binding? b.binding.key = some b ∧ b.binding.source = .provider params
    ∧ f = .delayed (.call (.member (.name b.handle) b.binding.key) args)

/-- Where a function of a plan comes from: it is inside a bound value, it calls a provider, or it
stands for a call that would close a cycle. -/
def Explains (inj : Injector) (f : Expr) : Prop :=
  (∃ b ∈ inj.bindings, ∃ e, b.binding.source = .value e ∧ f ∈ e.visited)
    ∨ inj.CallsProvider f ∨ f = .delayed .null

theorem Resolves.explains (h : inj.Resolves site task p es p')
    (member : .function params body ∈ Expr.visitedAll es ++ p'.nodes) :
  .function params body ∈ p.nodes ∨ inj.Explains (.function params body)
  := by
  induction h with
  | value bound =>
      obtain ⟨b, hb, source⟩ := bound
      obtain inside | before := List.mem_append.mp member
      · right
        left
        exact ⟨b, hb, _, source, by simpa using inside⟩
      · left
        exact before
  | heldLazily _ _ _ _ _ ih => simpa using ih (by simpa using member)
  | prototype _ _ _ _ _ ih => simpa using ih member
  | singleton _ _ _ _ _ ih => simpa using ih (by simpa using member)
  | eagerSingleton _ _ _ _ _ ih =>
      simpa using ih (by simpa [PlanStatement.value, or_comm] using member)
  | provided _ ih => exact ih member
  | providerFunction call ih =>
      simp only [Expr.visitedAll_cons, Expr.visitedAll_nil, List.append_nil, List.mem_append,
        Expr.function_mem_visited_delayed, nodes_resume, or_assoc] at member
      obtain self | inside := member
      · right
        right
        rw [self]
        -- what is inside the function is the call, unless that would close a cycle
        cases call with
        | cyclicCall _ _ _ => exact .inr rfl
        | call bound source _ _ => exact .inl ⟨_, _, _, bound, source, rfl⟩
      · exact ih (by simpa using inside)
  | call _ _ _ _ ih => exact ih (by simpa using member)
  | creation _ _ _ ih => exact ih (by simpa using member)
  | creationWithSetters _ _ _ _ ih₁ ih₂ =>
      simp only [List.cons_append, Expr.visitedAll_cons, Expr.visitedAll_nil, List.append_nil,
        List.mem_append, Expr.function_mem_visited_withSetters, or_assoc] at member ih₁ ih₂
      obtain inArgs | inside := member
      · exact ih₁ (.inl inArgs)
      · obtain before | explains := ih₂ inside
        · exact ih₁ (.inr (by simpa using before))
        · exact .inr explains
  | parameter _ _ ih₁ ih₂ =>
      simp only [Expr.visitedAll_cons, Expr.visitedAll_nil, List.append_nil, List.mem_append,
        or_assoc] at member ih₁ ih₂
      obtain inFirst | inside := member
      · exact ih₁ (.inl inFirst)
      · obtain before | explains := ih₂ inside
        · exact ih₁ (.inr before)
        · exact .inr explains
  | setter _ _ ih₁ ih₂ =>
      simp only [Expr.visitedAll_cons, List.mem_append, Expr.function_mem_visited_callMember,
        or_assoc] at member ih₁ ih₂
      obtain inFirst | inside := member
      · exact ih₁ (.inl inFirst)
      · obtain before | explains := ih₂ inside
        · exact ih₁ (.inr before)
        · exact .inr explains
  | _ => exact .inl (by simpa using member)

/-- The functions in the statements of errands are explained. -/
theorem Serves.explains (h : inj.Serves errands p q)
    (member : .function params body ∈ q.nodes) :
  .function params body ∈ p.nodes ∨ inj.Explains (.function params body)
  := by
  induction h with
  | nil => exact .inl member
  | @cons errand _ _ _ _ _ first _ ih =>
      obtain inside | explains := ih member
      · apply first.explains
        cases errand with
        | construct location c => exact List.mem_append_right _ inside
        | answer request =>
            simpa [Errand.finish, PlanStatement.value, or_comm] using inside
      · exact .inr explains

/-- A function that assigns a variable calls a provider. -/
theorem AssignFree.callsProvider (values : inj.AssignFree) {v : String} {value : Expr}
    (explains : inj.Explains (.function params body))
    (inside : .assign v value ∈ Stmt.visitedAll body) :
  inj.CallsProvider (.function params body)
  := by
  obtain ⟨b, member, e, source, inValue⟩ | calls | null := explains
  · exfalso
    apply values b member e source v value
    apply Expr.visited_subset e inValue
    exact List.mem_cons_of_mem _ inside
  · exact calls
  · obtain ⟨-, rfl⟩ := Expr.function.inj null
    simp [Stmt.visitedAll, Stmt.visited] at inside

end Injector

end Wiring
