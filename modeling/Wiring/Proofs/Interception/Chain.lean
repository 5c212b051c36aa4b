import Wiring.Interception
import Wiring.Proofs.Expr.Evaluation

/-!
# The chain of an override

What an override does when it is called. The call of an interceptor comes to what the interceptor
does with the receiver, the arguments, the names it reads and a function that goes on; around the
call of the inherited method these calls make a chain, which is built from the last interceptor and
runs from the first (`eval_foldr_interceptorCall`). An override keeps the receiver and the arguments
of its call and runs the chain (`invoke_overrideBody`).
-/

namespace Wiring

/-- What an interceptor does: with the receiver and the arguments of a call, the names of the class
and of the method, and a function that goes on with the call. -/
abbrev Behaviour (m : Type → Type) (V : Type) :=
  V → V → String → String → (V → List V → m V) → m V

namespace Interceptor

/-- What the interceptor is told of the name of a class. -/
def classNameGiven (i : Interceptor) (className : String) : String :=
  if i.reads.className then className else ""

/-- What the interceptor is told of the name of a method. -/
def methodNameGiven (i : Interceptor) (methodName : String) : String :=
  if i.reads.methodName then methodName else ""

end Interceptor

namespace World

variable {m : Type → Type} [Monad m] {V : Type} (w : World m V)

/-- A list of the arguments of a function, made by what the variables lead to. -/
def copied (locals : Locals V) (args : List V) : m V := do
  let array ← w.resolve locals "Array"
  let prototype ← w.property array "prototype"
  let slice ← w.property prototype "slice"
  w.send slice "call" [.value (w.arguments args)]

/-- The method of a class itself, called on a receiver with a list of arguments. -/
def inherited (locals : Locals V) (className methodName : String) (receiver list : V) : m V := do
  let c ← w.resolve locals className
  let prototype ← w.property c "prototype"
  let function ← w.property prototype methodName
  w.send function "apply" [.value receiver, .value list]

/-- Among some variables, the variable of an interceptor's module has a value, and the member of
that value that has the interceptor's name behaves in a certain way. -/
structure Offers (locals : Locals V) (i : OwnedInterceptor) (module : V)
    (behaviour : Behaviour m V) : Prop where
  holds : w.resolve locals i.handle = pure module
  behaves : ∀ receiver list className methodName proceed,
    w.send module i.interceptor.name
        [.value receiver, .value list, .value (w.text className), .value (w.text methodName),
          .function proceed]
      = behaviour receiver list className methodName proceed

/-- The variables inside an override as its call begins. -/
def entering (options : Options) (locals : Locals V) (params : List String) (args : List V) :
    Locals V :=
  w.bound params args
    ++ (options.interceptorArgs, w.undefined) :: (options.interceptorThis, w.undefined) :: locals

/-- The variables inside an override that has kept the receiver and the arguments of its call. -/
def inside (options : Options) (locals : Locals V) (params : List String) (receiver : V)
    (args : List V) (list : V) : Locals V :=
  (options.interceptorThis, receiver) :: (options.interceptorArgs, list)
    :: w.entering options locals params args

end World

/-- The interceptors around the rest of a call, the first one outermost: each is given a function
that goes on with the next one, and the last one a function that does the rest. -/
def around {m : Type → Type} {V : Type} (behaviour : OwnedInterceptor → Behaviour m V)
    (className methodName : String) (receiver list : V) (rest : m V) :
    List OwnedInterceptor → m V
  | [] => rest
  | i :: inner =>
    behaviour i receiver list (i.interceptor.classNameGiven className)
      (i.interceptor.methodNameGiven methodName)
      fun _ _ => around behaviour className methodName receiver list rest inner

namespace World

variable {m : Type → Type} {V : Type} (w : World m V)
variable {options : Options} {locals : Locals V} {params : List String} {receiver list : V}
  {args : List V}

theorem localsIn_overrideBody {className : String} {method : MethodDecl}
    {interceptors : List OwnedInterceptor} :
  w.localsIn locals params (overrideBody options className method interceptors) args
    = w.entering options locals params args
  := by
  simp [localsIn, entering, overrideBody, Stmt.declared?]

theorem lookup_this_inside :
  (w.inside options locals params receiver args list).lookup options.interceptorThis
    = some receiver
  := List.lookup_cons_self

theorem lookup_args_inside (apart : options.interceptorThis ≠ options.interceptorArgs) :
  (w.inside options locals params receiver args list).lookup options.interceptorArgs = some list
  := by
  rw [inside, List.lookup_cons, beq_false_of_ne apart.symm]
  apply List.lookup_cons_self

end World

section

variable {m : Type → Type} [Monad m] [LawfulMonad m] {V : Type} (w : World m V)
variable {options : Options} {className : String} {method : MethodDecl}
variable {locals : Locals V} {receiver list : V}

/-- The call of the inherited method. -/
theorem eval_inheritedCall
    (this : locals.lookup options.interceptorThis = some receiver)
    (args : locals.lookup options.interceptorArgs = some list) (r : V) (a : List V) :
  (Expr.inheritedCall options className method).eval w ⟨locals, r, a⟩
    = Outcome.value <$> w.inherited locals className method.name receiver list
  := by
  simp [Expr.inheritedCall, Expr.eval, Expr.evalAll, World.inherited, World.send, World.settle,
    w.resolve_of_lookup this, w.resolve_of_lookup args]

/-- The bare call of an interceptor, whose module the variables lead to. -/
theorem eval_interceptorCall_false {i : OwnedInterceptor} {module : V}
    {behaviour : Behaviour m V} {next : Expr}
    (this : locals.lookup options.interceptorThis = some receiver)
    (args : locals.lookup options.interceptorArgs = some list)
    (offers : w.Offers locals i module behaviour) (r : V) (a : List V) :
  (Expr.interceptorCall options className method false i (.delayed next)).eval w ⟨locals, r, a⟩
    = Outcome.value <$> behaviour receiver list (i.interceptor.classNameGiven className)
        (i.interceptor.methodNameGiven method.name)
        (w.invoke locals [] [.result next])
  := by
  rw [← offers.behaves]
  simp [Expr.interceptorCall, Expr.eval, Expr.evalAll, World.send, World.settle,
    Interceptor.classNameGiven, Interceptor.methodNameGiven,
    w.resolve_of_lookup this, w.resolve_of_lookup args, offers.holds]

/-- The call of an interceptor, whose module the variables lead to. If it is guarded and the module
is not truthy, it comes to the module. -/
theorem eval_interceptorCall {guarded : Bool} {i : OwnedInterceptor} {module : V}
    {behaviour : Behaviour m V} {next : Expr}
    (this : locals.lookup options.interceptorThis = some receiver)
    (args : locals.lookup options.interceptorArgs = some list)
    (offers : w.Offers locals i module behaviour) (r : V) (a : List V) :
  (Expr.interceptorCall options className method guarded i (.delayed next)).eval w ⟨locals, r, a⟩
    = if guarded && !w.isTruthy module then pure (.value module)
      else Outcome.value <$> behaviour receiver list (i.interceptor.classNameGiven className)
        (i.interceptor.methodNameGiven method.name)
        (w.invoke locals [] [.result next])
  := by
  rw [← eval_interceptorCall_false w this args offers]
  cases guarded with
  | false => rfl
  | true =>
      have guarded_eq : Expr.interceptorCall options className method true i (.delayed next)
          = .and (.name i.handle)
            (Expr.interceptorCall options className method false i (.delayed next)) := rfl
      rw [guarded_eq, Expr.eval, Expr.eval, offers.holds]
      cases truthy : w.isTruthy module with
      | false => simp [World.settle, truthy]
      | true => simp [World.settle, truthy]

/-- The chain of some interceptors, of which every module is truthy, in any function among the
variables. Whether the calls are guarded is decided by the whole list, so the flag stays the same
all the way in. -/
theorem eval_foldr_interceptorCall {guarded : Bool} {module : OwnedInterceptor → V}
    {behaviour : OwnedInterceptor → Behaviour m V} {interceptors : List OwnedInterceptor}
    (this : locals.lookup options.interceptorThis = some receiver)
    (args : locals.lookup options.interceptorArgs = some list)
    (offers : ∀ i ∈ interceptors, w.Offers locals i (module i) (behaviour i))
    (truthy : ∀ i ∈ interceptors, w.isTruthy (module i)) (r : V) (a : List V) :
  (interceptors.foldr
      (fun i next => Expr.interceptorCall options className method guarded i (.delayed next))
      (Expr.inheritedCall options className method)).eval w ⟨locals, r, a⟩
    = Outcome.value <$> around behaviour className method.name receiver list
        (w.inherited locals className method.name receiver list) interceptors
  := by
  induction interceptors generalizing r a with
  | nil => apply eval_inheritedCall w this args
  | cons i inner ih =>
      rw [List.forall_mem_cons] at offers truthy
      rw [List.foldr_cons, eval_interceptorCall w this args offers.1, truthy.1, around]
      simp only [Bool.not_true, Bool.and_false, Bool.false_eq_true, if_false]
      congr 2
      funext r' a'
      apply w.invoke_result
      apply ih offers.2 truthy.2

/-- The list of the arguments that an override makes at first. -/
theorem eval_copied (r : V) (a : List V) :
  (Expr.call (.member (.member (.member (.name "Array") "prototype") "slice") "call")
      [.arguments]).eval w ⟨locals, r, a⟩
    = Outcome.value <$> w.copied locals a
  := by
  simp [Expr.eval, Expr.evalAll, World.copied, World.send, World.settle]

/-- An override keeps the receiver and the arguments of its call, and returns what its chain comes
to then. -/
theorem invoke_of_eval_chain {interceptors : List OwnedInterceptor} {params : List String}
    {args : List V} {x : V → m V}
    (copies : w.copied (w.entering options locals params args) args = w.newList args)
    (chain : ∀ list, (Expr.chain options className method interceptors).eval w
      ⟨w.inside options locals params receiver args list, receiver, args⟩
        = Outcome.value <$> x list) :
  w.invoke locals params (overrideBody options className method interceptors) receiver args
    = w.newList args >>= x
  := by
  rw [World.invoke, w.localsIn_overrideBody, overrideBody, w.runAll_declare (eval_copied w _ _),
    copies]
  apply bind_congr
  intro list
  have this : ∀ locals : Locals V,
      Expr.this.eval w ⟨locals, receiver, args⟩ = Outcome.value <$> pure receiver := by
    intro locals
    rw [Expr.eval, map_pure]
  rw [w.runAll_declare (this _), pure_bind]
  apply w.runAll_result (chain list)

/-- What an override returns: the interceptors run around the inherited method, with the receiver
and the arguments of the call. The names of the body are read inside the override. -/
theorem invoke_overrideBody {interceptors : List OwnedInterceptor}
    {module : OwnedInterceptor → V} {behaviour : OwnedInterceptor → Behaviour m V}
    {params : List String} {args : List V}
    (apart : options.interceptorThis ≠ options.interceptorArgs)
    (copies : w.copied (w.entering options locals params args) args = w.newList args)
    (offers : ∀ list, ∀ i ∈ interceptors,
      w.Offers (w.inside options locals params receiver args list) i (module i) (behaviour i))
    (truthy : ∀ i ∈ interceptors, w.isTruthy (module i)) :
  w.invoke locals params (overrideBody options className method interceptors) receiver args
    = (do
      let list ← w.newList args
      around behaviour className method.name receiver list
        (w.inherited (w.inside options locals params receiver args list) className method.name
          receiver list)
        interceptors)
  := by
  apply invoke_of_eval_chain w copies
  intro list
  apply eval_foldr_interceptorCall w w.lookup_this_inside (w.lookup_args_inside apart) (offers list)
    truthy

end

/-! ### A recorded run -/

/-- An interceptor that leaves a mark with the names it is told, and goes on. That of the module
`again` goes on a second time. -/
def recorded (i : OwnedInterceptor) : Behaviour (StateM (List String)) String :=
  fun _ _ className methodName proceed => do
    modify (· ++ [i.handle ++ "(" ++ className ++ "," ++ methodName ++ ")"])
    let result ← proceed "undefined" []
    if i.handle = "again" then
      modify (· ++ ["once more"])
      proceed "undefined" []
    else
      return result

/-- A world of texts, in which every name is its own value. A member that is called like an
interceptor is the recorded one, and one that is called like a method leaves a mark. -/
def recording : World (StateM (List String)) String where
  null := "null"
  undefined := "undefined"
  text s := s
  arguments args := String.intercalate ";" args
  isTruthy v := v ≠ "undefined"
  newList args := pure (String.intercalate ";" args)
  newFunction _ := pure "function"
  source s := pure s
  read name := pure name
  write _ _ := pure ()
  property object member := pure (object ++ "." ++ member)
  call function object args :=
    match args with
    | [.value receiver, .value list, .value className, .value methodName, .function proceed] =>
      recorded ⟨{ classSelector := .any, methodSelector := .any, body := "" }, object⟩
        receiver list className methodName proceed
    | [.value receiver, .value list] => do
      modify (· ++ [function ++ "(" ++ receiver ++ "," ++ list ++ ")"])
      return "done"
    | [.value list] => pure list
    | _ => pure "undefined"
  construct c _ := pure c
  fault := pure "undefined"

theorem recording_offers {locals : Locals String} {i : OwnedInterceptor}
    (h : locals.lookup i.handle = none) (undotted : '.' ∉ i.handle.toList) :
  recording.Offers locals i i.handle (recorded i)
  := by
  constructor
  · apply recording.resolve_of_lookup_eq_none h undotted
  · intros
    rfl

/-- The first of two interceptors goes on twice, so the second one and the method run twice. -/
theorem invoke_overrideBody_recording :
  let again : OwnedInterceptor :=
    ⟨⟨.any, .any, "b", { className := true }, "i$0", "Again", {}⟩, "again"⟩
  let log : OwnedInterceptor :=
    ⟨⟨.any, .any, "b", { methodName := true }, "i$0", "Log", {}⟩, "log"⟩
  let body := overrideBody {} "app.Foo" { name := "run" } [again, log]
  Id.run ((recording.invoke [] ["x"] body "object" ["1", "2"]).run [])
    = ("done",
      [ "again(app.Foo,)",
        "log(,run)", "app.Foo.prototype.run.apply(object,1;2)", "once more",
        "log(,run)", "app.Foo.prototype.run.apply(object,1;2)" ])
  := by
  intro again log body
  have copies : recording.copied (recording.entering {} [] ["x"] ["1", "2"]) ["1", "2"]
      = recording.newList ["1", "2"] := by
    rw [World.copied, recording.resolve_of_lookup_eq_none rfl (by decide)]
    rfl
  have offers : ∀ list, ∀ i ∈ [again, log],
      recording.Offers (recording.inside {} [] ["x"] "object" ["1", "2"] list) i i.handle
        (recorded i) := by
    intro list
    rw [List.forall_mem_cons, List.forall_mem_singleton]
    constructor
    · apply recording_offers rfl (by decide)
    · apply recording_offers rfl (by decide)
  rw [invoke_overrideBody recording (by decide) copies offers (by decide)]
  decide +kernel

end Wiring
