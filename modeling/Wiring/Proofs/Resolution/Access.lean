import Wiring.Proofs.Resolution.Derivation
import Mathlib.Tactic.Common

/-!
# Accesses to variables

The reads and writes of a variable that evaluating an expression comes to, in the order in which
it does: arguments from left to right, and the value of an assignment before its target. What is
inside a function is left out, since it is evaluated when the function is called, if at all, and so
are the test and the consequent of a conditional that asks for a variable whether it is set.

`ReadsFollowWrites` says that a variable is assigned before it is read. Only the first access
matters for that (`readsFollowWrites_iff`).
-/

namespace Wiring

/-- An access to a variable. -/
inductive Access where
  | read
  | write
deriving DecidableEq

namespace Expr

/-- The conditional with this test and consequent asks for a variable whether it is set. -/
def isGuard : Expr → Expr → Bool
  | .name test, .name consequent => test = consequent
  | _, _ => false

end Expr

mutual

/-- The accesses to a variable, in the order of evaluation. -/
def Expr.accesses (v : String) : Expr → List Access
  | .name target => if target = v then [.read] else []
  | .member object _ => object.accesses v
  | .new _ args => Expr.accessesAll v args
  | .call callee args => callee.accesses v ++ Expr.accessesAll v args
  | .assign target value => value.accesses v ++ if target = v then [.write] else []
  | .sequence items => Expr.accessesAll v items
  | .conditional test consequent alternate =>
    (if test.isGuard consequent then [] else test.accesses v ++ consequent.accesses v)
      ++ alternate.accesses v
  | .and left right => left.accesses v ++ right.accesses v
  | _ => []

/-- The accesses of some expressions, one after the other. -/
def Expr.accessesAll (v : String) : List Expr → List Access
  | [] => []
  | e :: rest => e.accesses v ++ Expr.accessesAll v rest

end

/-- The accesses of the expression of a statement. -/
def PlanStatement.accesses (v : String) (s : PlanStatement) : List Access :=
  s.value.accesses v

@[simp]
theorem PlanStatement.accesses_construct (v className target : String) (value : Expr) :
  (construct className target value).accesses v = value.accesses v
  := rfl

@[simp]
theorem PlanStatement.accesses_answer (v : String) (request : Request) (value : Expr) :
  (answer request value).accesses v = value.accesses v
  := rfl

/-- The accesses of the statements of a plan, one after the other. -/
def Plan.accesses (v : String) (plan : Plan) : List Access :=
  plan.statements.flatMap (·.accesses v)

/-- Each read comes after some write. -/
def ReadsFollowWrites (accesses : List Access) : Prop :=
  ∀ before after, accesses = before ++ .read :: after → .write ∈ before

/-- It is only the first access that may not be a read. -/
theorem readsFollowWrites_iff {accesses : List Access} :
  ReadsFollowWrites accesses ↔ accesses.head? ≠ some .read
  := by
  constructor
  · intro follow first
    obtain ⟨after, rfl⟩ := List.head?_eq_some_iff.mp first
    cases follow [] after rfl
  · rintro first before after rfl
    cases before with
    | nil => cases first rfl
    | cons access before =>
        cases access with
        | read => cases first rfl
        | write => apply List.mem_cons_self

/-! ### Accesses of what resolution builds -/

namespace Expr

variable {v : String}

@[simp]
theorem accessesAll_nil :
  accessesAll v [] = []
  := rfl

@[simp]
theorem accessesAll_cons (e : Expr) (es : List Expr) :
  accessesAll v (e :: es) = e.accesses v ++ accessesAll v es
  := rfl

@[simp]
theorem accessesAll_singleton (e : Expr) :
  accessesAll v [e] = e.accesses v
  := by
  simp

@[simp]
theorem accessesAll_append (xs ys : List Expr) :
  accessesAll v (xs ++ ys) = accessesAll v xs ++ accessesAll v ys
  := by
  induction xs with
  | nil => rfl
  | cons x xs ih => simp [ih]

@[simp]
theorem accesses_null :
  accesses v .null = []
  := rfl

@[simp]
theorem accesses_delayed (e : Expr) :
  accesses v (.delayed e) = []
  := rfl

@[simp]
theorem accesses_name_self :
  accesses v (.name v) = [.read]
  := by
  simp [accesses]

theorem accesses_name_of_ne {name : String} (h : name ≠ v) :
  accesses v (.name name) = []
  := by
  simp [accesses, h]

/-- What is used only where the variable is not set yet is all that matters. -/
@[simp]
theorem accesses_once (target : String) (e : Expr) :
  accesses v (.once target e) = accesses v e
  := by
  simp [once, accesses, isGuard]

theorem accesses_assignedTo {target : Option String} (h : target ≠ some v) (className : String)
    (args : List Expr) :
  accesses v (.assignedTo target (.new className args)) = accessesAll v args
  := by
  cases target with
  | none => simp [assignedTo, accesses]
  | some target => simp_all [assignedTo, accesses]

/-- A call on an object in another variable accesses what its arguments do. -/
theorem accesses_callMember {object property : String} (h : object ≠ v) (args : List Expr) :
  accesses v (.call (.member (.name object) property) args) = accessesAll v args
  := by
  simp [accesses, h]

end Expr

end Wiring
