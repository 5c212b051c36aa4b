import Wiring.Expr.Basic
import Mathlib.Data.List.Basic
import Mathlib.Tactic.Common

/-!
# Evaluation

What an expression comes to when the code is run. The values of the code, what objects and functions
around it do, and the effects of all that are left open: they make up a `World`. Evaluation settles
the rest, from left to right: names are looked up in the functions around the expression, innermost
first, and then in the world; a function binds its parameters, its receiver and its arguments anew,
and its variables are there from the start, undefined until their declaration is reached.

The variables of a function are set by their declarations alone, so that a function inside it takes
their values with it. An assignment goes to a variable of the world, and so does the mention of a
base class.
-/

namespace Wiring

/-- What an expression comes to: a value of the world, or a function of the code, to be called with
a receiver and arguments. -/
inductive Outcome (m : Type → Type) (V : Type) where
  | value (v : V)
  | function (call : V → List V → m V)

/-- What code runs in. The effects of what happens there are those of `m`. -/
structure World (m : Type → Type) (V : Type) where
  null : V
  undefined : V
  text : String → V
  /-- The object that a function finds its arguments in. -/
  arguments : List V → V
  isTruthy : V → Bool
  /-- A new list of some values. -/
  newList : List V → m V
  /-- A function of the code as a value. -/
  newFunction : (V → List V → m V) → m V
  /-- The value of source text. -/
  source : String → m V
  /-- The value of a variable outside all functions. -/
  read : String → m V
  write : String → V → m Unit
  property : V → String → m V
  /-- Calls a function on a receiver. -/
  call : V → V → List (Outcome m V) → m V
  construct : V → List (Outcome m V) → m V
  /-- An assignment to a variable of a function, which no plan makes. -/
  fault : m V

/-- The variables of the functions around an expression, innermost first. -/
abbrev Locals (V : Type) := List (String × V)

/-- Where an expression stands: in a function that has been called. -/
structure Frame (V : Type) where
  locals : Locals V := []
  receiver : V
  arguments : List V

/-- The parts of a dotted name. -/
def segments (name : String) : List String :=
  (name.toList.splitOn '.').map String.ofList

/-- The first part of a dotted name. -/
def leading (name : String) : String :=
  (segments name).headD name

theorem segments_of_not_mem {name : String} (h : '.' ∉ name.toList) :
  segments name = [name]
  := by
  rw [segments, List.splitOn_eq_singleton h, List.map_singleton, String.ofList_toList]

theorem leading_of_not_mem {name : String} (h : '.' ∉ name.toList) :
  leading name = name
  := by
  rw [leading, segments_of_not_mem h, List.headD_cons]

/-- The variable that the statement declares. -/
def Stmt.declared? : Stmt → Option String
  | .declare name _ => some name
  | _ => none

namespace World

variable {m : Type → Type} {V : Type} (w : World m V)

/-- The parameters of a function, each with its argument. Of parameters of one name the last one
counts. -/
def bound : List String → List V → Locals V
  | [], _ => []
  | p :: params, args => bound params args.tail ++ [(p, args.headD w.undefined)]

/-- The variables inside a function that has been called. -/
def localsIn (locals : Locals V) (params : List String) (body : List Stmt)
    (args : List V) : Locals V :=
  w.bound params args ++ (body.filterMap Stmt.declared?).map (·, w.undefined) ++ locals

variable [Monad m]

/-- The outcome as a value. -/
def settle : Outcome m V → m V
  | .value v => pure v
  | .function call => w.newFunction call

/-- The value of a variable. -/
def lookUp (locals : Locals V) (name : String) : m V :=
  match locals.lookup name with
  | some v => pure v
  | none => w.read name

/-- The value of a name. A name that no function declares may be qualified: then it leads from a
variable through properties. -/
def resolve (locals : Locals V) (name : String) : m V :=
  match locals.lookup name with
  | some v => pure v
  | none => do (segments name).tail.foldlM w.property (← w.lookUp locals (leading name))

/-- The member of a value, called on it. -/
def send (object : V) (member : String) (args : List (Outcome m V)) : m V := do
  let function ← w.property object member
  w.call function object args

end World

section

variable {m : Type → Type} [Monad m] {V : Type} (w : World m V)

mutual

/-- The outcome of an expression. -/
def Expr.eval (frame : Frame V) : Expr → m (Outcome m V)
  | .null => pure (.value w.null)
  | .this => pure (.value frame.receiver)
  | .super => .value <$> w.read "super"
  | .arguments => pure (.value (w.arguments frame.arguments))
  | .str value => pure (.value (w.text value))
  | .raw source => .value <$> w.source source
  | .name name => .value <$> w.resolve frame.locals name
  | .member object property => do
    let object ← w.settle (← object.eval frame)
    .value <$> w.property object property
  | .new className args => do
    let c ← w.resolve frame.locals className
    .value <$> w.construct c (← Expr.evalAll frame args)
  | .call (.member object property) args => do
    let object ← w.settle (← object.eval frame)
    let function ← w.property object property
    .value <$> w.call function object (← Expr.evalAll frame args)
  | .call callee args => do
    match ← callee.eval frame with
    | .value function => .value <$> w.call function w.undefined (← Expr.evalAll frame args)
    | .function call => do
      let args ← (← Expr.evalAll frame args).mapM w.settle
      .value <$> call w.undefined args
  | .assign target value => do
    let v ← w.settle (← value.eval frame)
    if (frame.locals.lookup target).isSome then
      .value <$> w.fault
    else
      w.write target v
      return .value v
  | .sequence items => do
    return (← Expr.evalAll frame items).getLastD (.value w.undefined)
  | .conditional test consequent alternate => do
    if w.isTruthy (← w.settle (← test.eval frame)) then consequent.eval frame
    else alternate.eval frame
  | .and left right => do
    let v ← w.settle (← left.eval frame)
    if w.isTruthy v then right.eval frame else return .value v
  | .function params body =>
    pure (.function fun receiver args =>
      Stmt.runAll
        { locals := w.localsIn frame.locals params body args
          receiver
          arguments := args }
        body)

/-- The outcomes of some expressions, evaluated one after the other. -/
def Expr.evalAll (frame : Frame V) : List Expr → m (List (Outcome m V))
  | [] => pure []
  | e :: rest => do
    let first ← e.eval frame
    return first :: (← Expr.evalAll frame rest)

/-- The value that a function body returns. -/
def Stmt.runAll (frame : Frame V) : List Stmt → m V
  | [] => pure w.undefined
  | .declare name value :: rest => do
    let v ← w.settle (← value.eval frame)
    Stmt.runAll { frame with locals := (name, v) :: frame.locals } rest
  | .evaluate value :: rest => do
    let _ ← value.eval frame
    Stmt.runAll frame rest
  | .result value :: _ => do
    w.settle (← value.eval frame)

end

end

namespace World

variable {m : Type → Type} [Monad m] {V : Type} (w : World m V)

/-- Calls a function of the code, which stands among some variables. -/
def invoke (locals : Locals V) (params : List String) (body : List Stmt) (receiver : V)
    (args : List V) : m V :=
  Stmt.runAll w
    { locals := w.localsIn locals params body args
      receiver
      arguments := args }
    body

theorem resolve_of_lookup {locals : Locals V} {name : String} {v : V}
    (h : locals.lookup name = some v) :
  w.resolve locals name = pure v
  := by
  rw [resolve, h]

theorem eval_function (frame : Frame V) (params : List String) (body : List Stmt) :
  (Expr.function params body).eval w frame
    = pure (.function (w.invoke frame.locals params body))
  := by
  rw [Expr.eval]
  rfl

@[simp]
theorem eval_delayed (frame : Frame V) (value : Expr) :
  (Expr.delayed value).eval w frame
    = pure (.function (w.invoke frame.locals [] [.result value]))
  := w.eval_function frame [] [.result value]

variable [LawfulMonad m]

/-- A name without dots that no function declares is a variable of the world. -/
theorem resolve_of_lookup_eq_none {locals : Locals V} {name : String}
    (h : locals.lookup name = none) (undotted : '.' ∉ name.toList) :
  w.resolve locals name = w.read name
  := by
  rw [resolve, h, segments_of_not_mem undotted, leading_of_not_mem undotted]
  simp only [lookUp, h, List.tail_cons, List.foldlM_nil, bind_pure]

/-! ### Functions that return values

What follows is about expressions that come to a value, `x` with its effects. -/

variable {frame : Frame V} {value : Expr} {x : m V}

theorem runAll_declare (h : value.eval w frame = Outcome.value <$> x) (name : String)
    (rest : List Stmt) :
  Stmt.runAll w frame (.declare name value :: rest)
    = x >>= fun v => Stmt.runAll w { frame with locals := (name, v) :: frame.locals } rest
  := by
  simp [Stmt.runAll, h, settle]

theorem runAll_result (h : value.eval w frame = Outcome.value <$> x) (rest : List Stmt) :
  Stmt.runAll w frame (.result value :: rest) = x
  := by
  simp [Stmt.runAll, h, settle]

/-- A function that only returns an expression has no variables of its own. -/
theorem invoke_result {locals : Locals V} {receiver : V} {args : List V}
    (h : value.eval w ⟨locals, receiver, args⟩ = Outcome.value <$> x) :
  w.invoke locals [] [.result value] receiver args = x
  := w.runAll_result h []

end World

end Wiring
