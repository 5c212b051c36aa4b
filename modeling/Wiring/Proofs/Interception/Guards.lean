import Wiring.Proofs.Interception.Chain

/-!
# Guarded interceptors

Of several interceptors each is guarded by the variable of its module. A guard is a conjunction: if the
variable is not truthy, its value stands for the call of the interceptor and for all that this call
would have gone on with. So an override runs its interceptors up to the first one whose module is not
truthy, and there the call comes to the value of that variable (`invoke_overrideBody_guarded`): neither
a later interceptor nor the method itself is reached. An interceptor of a module that was not configured
is thus never called, but it does not make way for the rest of its chain either
(`not_leavesOut_audited`).
-/

namespace Wiring

section

variable {m : Type → Type} [Monad m] {V : Type} (w : World m V)

/-- What a call comes to behind the interceptors whose modules are truthy: the value of the first
other module, or what the rest of the call comes to. -/
def World.behindTruthy (module : OwnedInterceptor → V) (rest : m V)
    (interceptors : List OwnedInterceptor) : m V :=
  match interceptors.find? fun i => !w.isTruthy (module i) with
  | some i => pure (module i)
  | none => rest

variable [LawfulMonad m]
variable {options : Options} {className : String} {method : MethodDecl}
variable {locals : Locals V} {receiver list : V} {module : OwnedInterceptor → V}
  {behaviour : OwnedInterceptor → Behaviour m V} {interceptors : List OwnedInterceptor}

/-- The guarded call of an interceptor whose module is not truthy. The module need not offer
anything. -/
theorem eval_interceptorCall_stopped {i : OwnedInterceptor} {v : V} {next : Expr}
    (holds : w.resolve locals i.handle = pure v) (falsy : w.isTruthy v = false) (r : V)
    (a : List V) :
  (Expr.interceptorCall options className method true i (.delayed next)).eval w ⟨locals, r, a⟩
    = pure (.value v)
  := by
  have guarded_eq : Expr.interceptorCall options className method true i (.delayed next)
      = .and (.name i.handle)
        (Expr.interceptorCall options className method false i (.delayed next)) := rfl
  rw [guarded_eq, Expr.eval, Expr.eval, holds]
  simp [World.settle, falsy]

/-- The guarded calls of some interceptors, in any function among the variables. -/
theorem eval_foldr_guardedCall
    (this : locals.lookup options.interceptorThis = some receiver)
    (args : locals.lookup options.interceptorArgs = some list)
    (holds : ∀ i ∈ interceptors, w.resolve locals i.handle = pure (module i))
    (offers : ∀ i ∈ interceptors, w.isTruthy (module i) →
      w.Offers locals i (module i) (behaviour i)) (r : V) (a : List V) :
  (interceptors.foldr
      (fun i next => Expr.interceptorCall options className method true i (.delayed next))
      (Expr.inheritedCall options className method)).eval w ⟨locals, r, a⟩
    = Outcome.value <$> around behaviour className method.name receiver list
        (w.behindTruthy module (w.inherited locals className method.name receiver list)
          interceptors)
        (interceptors.takeWhile fun i => w.isTruthy (module i))
  := by
  induction interceptors generalizing r a with
  | nil => apply eval_inheritedCall w this args
  | cons i inner ih =>
      rw [List.forall_mem_cons] at holds offers
      rw [List.foldr_cons, List.takeWhile_cons, World.behindTruthy, List.find?_cons]
      cases truthy : w.isTruthy (module i) with
      | false =>
          -- what the call would go on with is not reached
          rw [eval_interceptorCall_stopped w holds.1 truthy]
          simp [around]
      | true =>
          rw [eval_interceptorCall w this args (offers.1 truthy), truthy]
          simp only [Bool.not_true, Bool.and_false, Bool.false_eq_true, if_false, if_true, around]
          congr 2
          funext r' a'
          apply w.invoke_result
          apply ih holds.2 offers.2

/-- The chain of several interceptors. -/
theorem eval_chain_guarded (several : 1 < interceptors.length)
    (this : locals.lookup options.interceptorThis = some receiver)
    (args : locals.lookup options.interceptorArgs = some list)
    (holds : ∀ i ∈ interceptors, w.resolve locals i.handle = pure (module i))
    (offers : ∀ i ∈ interceptors, w.isTruthy (module i) →
      w.Offers locals i (module i) (behaviour i)) (r : V) (a : List V) :
  (Expr.chain options className method interceptors).eval w ⟨locals, r, a⟩
    = Outcome.value <$> around behaviour className method.name receiver list
        (w.behindTruthy module (w.inherited locals className method.name receiver list)
          interceptors)
        (interceptors.takeWhile fun i => w.isTruthy (module i))
  := by
  rw [Expr.chain, decide_eq_true several]
  apply eval_foldr_guardedCall w this args holds offers

/-- What an override with several interceptors returns, whichever of their modules are truthy: the
interceptors up to the first one whose module is not run around the value of its variable, or all of
them around the inherited method. -/
theorem invoke_overrideBody_guarded {params : List String} {args : List V}
    (several : 1 < interceptors.length)
    (apart : options.interceptorThis ≠ options.interceptorArgs)
    (copies : w.copied (w.entering options locals params args) args = w.newList args)
    (holds : ∀ list, ∀ i ∈ interceptors,
      w.resolve (w.inside options locals params receiver args list) i.handle = pure (module i))
    (offers : ∀ list, ∀ i ∈ interceptors, w.isTruthy (module i) →
      w.Offers (w.inside options locals params receiver args list) i (module i) (behaviour i)) :
  w.invoke locals params (overrideBody options className method interceptors) receiver args
    = (do
      let list ← w.newList args
      around behaviour className method.name receiver list
        (w.behindTruthy module
          (w.inherited (w.inside options locals params receiver args list) className method.name
            receiver list)
          interceptors)
        (interceptors.takeWhile fun i => w.isTruthy (module i)))
  := by
  apply invoke_of_eval_chain w copies
  intro list
  apply eval_chain_guarded w several w.lookup_this_inside (w.lookup_args_inside apart) (holds list)
    (offers list)

end

/-! ### A chain that stops -/

/-- Whichever modules are truthy, an override does what it would do if the interceptors of the others
were not in its list. -/
def LeavesOut (options : Options) (className : String) (method : MethodDecl)
    (interceptors : List OwnedInterceptor) : Prop :=
  ∀ ⦃m : Type → Type⦄ [Monad m] [LawfulMonad m] ⦃V : Type⦄ (w : World m V) (locals : Locals V)
    (params : List String) (module : OwnedInterceptor → V)
    (behaviour : OwnedInterceptor → Behaviour m V) (receiver : V) (args : List V),
    w.copied (w.entering options locals params args) args = w.newList args →
    (∀ list, ∀ i ∈ interceptors,
      w.resolve (w.inside options locals params receiver args list) i.handle = pure (module i)) →
    (∀ list, ∀ i ∈ interceptors, w.isTruthy (module i) →
      w.Offers (w.inside options locals params receiver args list) i (module i) (behaviour i)) →
    w.invoke locals params (overrideBody options className method interceptors) receiver args
      = (do
        let list ← w.newList args
        around behaviour className method.name receiver list
          (w.inherited (w.inside options locals params receiver args list) className method.name
            receiver list)
          (interceptors.filter fun i => w.isTruthy (module i)))

/-- A method that is audited and logged. -/
def audited : List OwnedInterceptor :=
  [ ⟨⟨.any, .any, "b", { methodName := true }, "i$0", "Audit", {}⟩, "audit"⟩,
    ⟨⟨.any, .any, "b", { methodName := true }, "i$0", "Log", {}⟩, "log"⟩ ]

/-- The variables around a function if logging has not been configured. -/
def unlogged : Locals String :=
  [("log", "undefined")]

theorem copied_unlogged :
  recording.copied (recording.entering {} unlogged [] ["1"]) ["1"] = recording.newList ["1"]
  := by
  rw [World.copied, recording.resolve_of_lookup_eq_none rfl (by decide)]
  rfl

/-- What the variables of the modules hold if logging has not been configured. -/
def unloggedModule (i : OwnedInterceptor) : String :=
  if i.handle = "log" then "undefined" else i.handle

theorem holds_unlogged (list : String) :
  ∀ i ∈ audited, recording.resolve (recording.inside {} unlogged [] "object" ["1"] list) i.handle
    = pure (unloggedModule i)
  := by
  rw [audited, List.forall_mem_cons, List.forall_mem_singleton]
  constructor
  · apply recording.resolve_of_lookup_eq_none rfl (by decide)
  · apply recording.resolve_of_lookup rfl

theorem offers_unlogged (list : String) :
  ∀ i ∈ audited, recording.isTruthy (unloggedModule i) →
    recording.Offers (recording.inside {} unlogged [] "object" ["1"] list) i (unloggedModule i)
      (recorded i)
  := by
  rw [audited, List.forall_mem_cons, List.forall_mem_singleton]
  constructor
  · intro _
    apply recording_offers rfl (by decide)
  · intro truthy
    exact absurd truthy (by decide)

/-- The audit runs and goes on, but to nothing: the call returns what the log's variable holds, and
the method has not run. -/
theorem invoke_overrideBody_guarded_audited :
  1 < audited.length
    ∧ Id.run ((recording.invoke unlogged []
        (overrideBody {} "app.Foo" { name := "run" } audited) "object" ["1"]).run [])
      = ("undefined", ["audit(,run)"])
  := by
  refine ⟨by decide, ?_⟩
  rw [invoke_overrideBody_guarded recording (by decide) (by decide) copied_unlogged holds_unlogged
    offers_unlogged]
  decide +kernel

/-- Without logging, a method that is audited and logged is not run. If the log were left out, it
would be. -/
theorem not_leavesOut_audited :
  ¬ LeavesOut {} "app.Foo" { name := "run" } audited
  := by
  intro leavesOut
  have eq := leavesOut recording unlogged [] unloggedModule recorded "object" ["1"] copied_unlogged
    holds_unlogged offers_unlogged
  rw [invoke_of_eval_chain recording copied_unlogged fun list =>
    eval_chain_guarded recording (by decide) recording.lookup_this_inside
      (recording.lookup_args_inside (by decide)) (holds_unlogged list) (offers_unlogged list)
      "object" ["1"]] at eq
  have ran := congrArg (fun x : StateM (List String) String => (Id.run (x.run [])).2) eq
  revert ran
  decide +kernel

end Wiring
