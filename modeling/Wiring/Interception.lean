import Wiring.Injector.Basic

/-!
# Interception

An intercepted class is constructed through a subclass that overrides the selected methods. An
override keeps the receiver and the arguments of a call and runs the interceptors around the
inherited method: each is given a function that goes on with the next one, and the last one a
function that calls the inherited method.
-/

namespace Wiring

namespace Expr

/-- The method of the class itself, called with the receiver and the arguments kept before. -/
def inheritedCall (options : Options) (className : String) (m : MethodDecl) : Expr :=
  .call
    (.member (.member (.member (.name className) "prototype") m.name) "apply")
    [.name options.interceptorThis, .name options.interceptorArgs]

/-- The call of an interceptor, given what it goes on with. Among others it is guarded by the
variable of its module. -/
def interceptorCall (options : Options) (className : String) (m : MethodDecl) (guarded : Bool)
    (i : OwnedInterceptor) (proceed : Expr) : Expr :=
  let owner := Expr.name i.handle
  let call := Expr.call (.member owner i.interceptor.name)
    [ .name options.interceptorThis,
      .name options.interceptorArgs,
      .str (if i.interceptor.reads.className then className else ""),
      .str (if i.interceptor.reads.methodName then m.name else ""),
      proceed ]
  if guarded then .and owner call else call

/-- The interceptors around a method, the first one outermost. -/
def chain (options : Options) (className : String) (m : MethodDecl)
    (interceptors : List OwnedInterceptor) : Expr :=
  let guarded := 1 < interceptors.length
  interceptors.foldr
    (fun i next => interceptorCall options className m guarded i (.delayed next))
    (inheritedCall options className m)

end Expr

/-- The body of an override. -/
def overrideBody (options : Options) (className : String) (m : MethodDecl)
    (interceptors : List OwnedInterceptor) : List Stmt :=
  [ .declare options.interceptorArgs
      (.call (.member (.member (.member (.name "Array") "prototype") "slice") "call") [.arguments]),
    .declare options.interceptorThis .this,
    .result (Expr.chain options className m interceptors) ]

namespace Injector

/-- The name of the subclass that intercepts a class. -/
def interceptingName (inj : Injector) (className : String) : String :=
  inj.options.subclassPrefix ++ identifierOf className

/-- The interceptors at some places. -/
def interceptorsAt (inj : Injector) (places : List Nat) : List OwnedInterceptor :=
  places.filterMap fun i => inj.interceptors[i]?

/-- The overrides of a class, one for each selected method. -/
def overrides (inj : Injector) (c : ManagedClass) : List Override :=
  ((c.decl.methods.zip c.selected).filter fun (m, selected) => selected ≠ [] ∧ ¬ m.ambiguous).map
    fun (m, selected) =>
      { name := m.name
        params := m.params
        body := overrideBody inj.options c.name m (inj.interceptorsAt selected) }

/-- The subclass that intercepts a class. Its constructor hands its arguments on. -/
def interceptingClass (inj : Injector) (c : ManagedClass) : InterceptingClass :=
  { name := inj.interceptingName c.name
    base := c.name
    params := c.decl.params
    constructor := [.evaluate (.call .super (c.decl.params.map .name))]
    methods := inj.overrides c }

/-- The class that is constructed in place of a class. -/
def constructedName (inj : Injector) (c : ManagedClass) : String :=
  if c.isIntercepted then inj.interceptingName c.name else c.name

end Injector

end Wiring
