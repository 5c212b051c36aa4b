import Wiring.Declaration.Basic

/-!
# Plans

What is handed to the emission of code for one entry point: the variables of its modules, the
variables to declare, the subclasses that intercept, and its statements.
-/

namespace Wiring

/-- A method that runs interceptors around the inherited one. -/
structure Override where
  name : String
  params : List String
  body : List Stmt
deriving DecidableEq

/-- A subclass with intercepted methods. -/
structure InterceptingClass where
  name : String
  base : String
  params : List String
  constructor : List Stmt
  methods : List Override
deriving DecidableEq

/-- The override of a method. -/
def InterceptingClass.method? (c : InterceptingClass) (name : String) : Option Override :=
  c.methods.find? (·.name = name)

/-- The variable that holds a module, and the method that sets the module up. -/
structure ModuleHandle where
  name : String
  moduleName : String
  configure : String
deriving DecidableEq

/-- A statement of an entry point. -/
inductive PlanStatement where
  /-- Constructs an eager singleton into its variable. -/
  | construct (className target : String) (value : Expr)
  /-- Answers a request. -/
  | answer (request : Request) (value : Expr)
deriving DecidableEq

/-- The expression of the statement. -/
def PlanStatement.value : PlanStatement → Expr
  | construct _ _ value => value
  | answer _ value => value

/-- The plan of an entry point. -/
structure Plan where
  entry : String
  modules : List ModuleHandle
  declarations : List String
  subclasses : List InterceptingClass
  statements : List PlanStatement
deriving DecidableEq

namespace Plan

/-- The answers to the requests, in their order. -/
def injections (p : Plan) : List Expr :=
  p.statements.filterMap fun
    | .answer _ value => some value
    | .construct .. => none

/-- The subclass of a base. -/
def interceptingClass? (p : Plan) (base : String) : Option InterceptingClass :=
  p.subclasses.find? (·.base = base)

end Plan

/-- The plans of all entry points, in the order of these. -/
structure Plans where
  plans : List Plan
deriving DecidableEq

/-- The plan of the first entry point of a name. -/
def Plans.plan? (output : Plans) (entry : String) : Option Plan :=
  output.plans.find? (·.entry = entry)

end Wiring
