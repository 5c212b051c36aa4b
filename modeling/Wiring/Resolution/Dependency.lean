import Wiring.Diagnostic.Basic
import Wiring.Injector.Basic
import Wiring.Resolution.Trail

/-!
# Dependencies

What a request or a parameter leads to. This is decided by the injector alone, so it makes the
graph on which resolution runs.
-/

namespace Wiring

/-- What a name leads to. -/
inductive Dependency where
  /-- An expression that stands ready. -/
  | value (expr : Expr)
  /-- Nothing, for a reason. -/
  | absent (problem : Problem)
  /-- An object of a class. -/
  | object (c : ManagedClass)
  /-- The value of a provider. -/
  | provided (b : OwnedBinding) (params : List String)
  /-- A function that calls a provider when it is called itself. -/
  | providerFunction (b : OwnedBinding) (params : List String)
deriving DecidableEq

/-- The step that resolving a dependency starts with, if it is more than a look-up. -/
def Dependency.step? : Dependency → Option Step
  | value _ => none
  | absent _ => none
  | object c => some (.ofClass c.name)
  | provided b _ => some (.ofProvider b.binding.key)
  | providerFunction b _ => some (.ofProvider b.binding.key)

namespace Injector

/-- An object of the class of a name. -/
def objectOf (inj : Injector) (className : String) : Dependency :=
  match inj.class? className with
  | some c => .object c
  | none => .absent (.classNotFound className)

/-- What a binding leads to. -/
def bound (inj : Injector) (b : OwnedBinding) : Dependency :=
  match b.binding.source with
  | .type className => inj.objectOf className
  | .value expr => .value expr
  | .provider params => .provided b params

/-- What a request asks for. -/
def requested (inj : Injector) : Wanted → Dependency
  | .ofClass name => inj.objectOf name
  | .ofKey key =>
    match inj.binding? key with
    | some b => inj.bound b
    | none => .absent (.bindingNotFound key)

/-- What the provider of a key leads to as a function. -/
def providerOf (inj : Injector) (key : String) : Dependency :=
  match inj.binding? key with
  | none => .absent (.bindingNotFound key)
  | some b =>
    match b.binding.source with
    | .provider params => .providerFunction b params
    | _ => .absent (.bindingNotProvider key)

/-- What a parameter leads to: what is bound under its name or, if nothing is and it has the
provider suffix, the provider of the key before the suffix. -/
def parameter (inj : Injector) (name : String) : Dependency :=
  match inj.binding? name with
  | some b => inj.bound b
  | none =>
    match inj.options.providedKey? name with
    | none => .absent (.bindingNotFound name)
    | some key => inj.providerOf key

/-- The steps that resolution can take: the declared classes and the bound providers. -/
def steps (inj : Injector) : List Step :=
  inj.classes.map (.ofClass ·.name) ++
    (inj.bindings.filter (·.binding.kind = .toProvider)).map (.ofProvider ·.binding.key)

end Injector

end Wiring
