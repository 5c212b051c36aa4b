import Wiring.Resolution.Dependency
import Wiring.Resolution.Progress

/-!
# Resolution

Turns a dependency into the expression that constructs it, depth first and from left to right.
A shared object is constructed where it is needed first and is a variable from then on; an eager
one is constructed in a statement of its own. What cannot be resolved is reported and becomes
`null`.

One step of resolution is defined relative to the resolution of the dependencies below it, and
resolution is the step repeated to a depth that no resolution exceeds that ends at all.
-/

namespace Wiring

/-- A computation that makes progress. -/
abbrev Resolving (α : Type) := StateM Progress α

/-- Where resolution stands: the position that problems are reported at, and the steps in
progress. -/
structure Site where
  location : Location
  trail : Trail := []

/-- The site inside a further step. -/
def Site.enter (site : Site) (step : Step) : Site :=
  { site with trail := step :: site.trail }

/-- Reports a problem and goes on with `null`. -/
def unresolved (site : Site) (problem : Problem) : Resolving Expr := do
  modify (·.report problem site.location)
  return .null

/-- A variable if it is set already, or else the value that sets it. -/
def Expr.once (target : String) (value : Expr) : Expr :=
  .conditional (.name target) (.name target) value

namespace Injector

/-- The step would close a cycle, and cycles are looked for. -/
def closesCycle (inj : Injector) (site : Site) (step : Step) : Bool :=
  inj.options.detectCycles && site.trail.contains step

/-- The resolution of a dependency at a site. -/
abbrev Resolver := Site → Dependency → Resolving Expr

/-- Resolves parameters one after the other. -/
def resolveAll (inj : Injector) (resolve : Resolver) (site : Site) (names : List String) :
    Resolving (List Expr) :=
  names.mapM fun name => resolve site (inj.parameter name)

/-- The call of a provider, a function of its module. -/
def provide (inj : Injector) (resolve : Resolver) (site : Site) (b : OwnedBinding)
    (params : List String) : Resolving Expr := do
  let step := Step.ofProvider b.binding.key
  if inj.closesCycle site step then
    unresolved site (.cyclicBinding (site.trail.cycleText step))
  else
    let args ← inj.resolveAll resolve (site.enter step) params
    return .call (.member (.name b.handle) b.binding.key) args

/-- A function that calls a provider when it is called itself. -/
def provideLater (inj : Injector) (resolve : Resolver) (site : Site) (b : OwnedBinding)
    (params : List String) : Resolving Expr := do
  modify (·.defer)
  let call ← inj.provide resolve site b params
  modify (·.resume)
  return .delayed call

/-- The call of a setter on the object that a variable holds. -/
def callSetter (inj : Injector) (resolve : Resolver) (site : Site) (c : ManagedClass)
    (target setter : String) : Resolving Expr := do
  let args ← inj.resolveAll resolve site (c.decl.methodParams setter)
  return .call (.member (.name target) setter) args

/-- A variable to hold an object while its setters are called. -/
def temporary (inj : Injector) : Resolving String := do
  let target := (← get).nextTemporary inj.options
  modify (·.takeTemporary inj.options)
  return target

/-- The construction of an object, assigned to a variable if one is given. An object with setters
needs a variable in any case. -/
def create (inj : Injector) (resolve : Resolver) (site : Site) (c : ManagedClass)
    (target : Option String) : Resolving Expr := do
  let inside := site.enter (.ofClass c.name)
  let args ← inj.resolveAll resolve inside c.decl.params
  let created := Expr.new (inj.constructedName c) args
  if c.decl.setters = [] then
    match target with
    | some target => return .assign target created
    | none => return created
  else
    let target ←
      match target with
      | some target => pure target
      | none => inj.temporary
    let calls ← c.decl.setters.mapM (inj.callSetter resolve inside c target)
    return .sequence (.assign target created :: calls ++ [.name target])

/-- A variable for the shared object of a class. -/
def shared (inj : Injector) (c : ManagedClass) (lazy : Bool) : Resolving String := do
  let target := (← get).nextSingleton inj.options
  modify (·.takeSingleton inj.options c.name lazy)
  return target

/-- The first use of a class, or any use of one whose objects are not shared. -/
def firstUse (inj : Injector) (resolve : Resolver) (site : Site) (c : ManagedClass) :
    Resolving Expr := do
  match c.scope with
  | .prototype => inj.create resolve site c none
  | .singleton =>
    let target ← inj.shared c (← get).isDeferred
    return .once target (← inj.create resolve site c (some target))
  | .eagerSingleton =>
    let target ← inj.shared c false
    let value ← inj.create resolve site c (some target)
    modify (·.emit (.construct c.name target value))
    return .name target

/-- A later use of a shared object. As long as its variable may still be unset it is constructed
again, to be used if it is. -/
def laterUse (inj : Injector) (resolve : Resolver) (site : Site) (c : ManagedClass)
    (held : SingletonVariable) : Resolving Expr := do
  if held.lazy then
    let value ← inj.create resolve site c (some held.name)
    modify fun p => p.setLazy c.name p.isDeferred
    return .once held.name value
  else
    return .name held.name

/-- An object of a class. -/
def useClass (inj : Injector) (resolve : Resolver) (site : Site) (c : ManagedClass) :
    Resolving Expr := do
  let step := Step.ofClass c.name
  if inj.closesCycle site step then
    unresolved site (.cyclicBinding (site.trail.cycleText step))
  else
    modify (·.addSubclass inj c)
    match (← get).singleton? c.name with
    | some held => inj.laterUse resolve site c held
    | none => inj.firstUse resolve site c

/-- One step of resolution, given the resolution of what lies below. -/
def resolveOnce (inj : Injector) (resolve : Resolver) : Resolver := fun site dependency =>
  match dependency with
  | .value expr => pure expr
  | .absent problem => unresolved site problem
  | .object c => inj.useClass resolve site c
  | .provided b params => inj.provide resolve site b params
  | .providerFunction b params => inj.provideLater resolve site b params

/-- Resolution to a depth. Below it everything counts as a cycle. -/
def resolveTo (inj : Injector) : Nat → Resolver
  | 0 => fun site _ =>
    unresolved site (.cyclicBinding (joined " -> " (site.trail.reverse.map Step.text)))
  | depth + 1 => inj.resolveOnce (inj.resolveTo depth)

/-- A depth that is not exceeded. Where cycles are looked for, the steps in progress are distinct.
Where they are not, a step comes again inside itself only after some shared object has got a
variable or lost its laziness, or when a function has been entered, for otherwise it would come
again for ever. -/
def depth (inj : Injector) : Nat :=
  if inj.options.detectCycles then inj.steps.length + 1
  else inj.steps.length * (2 * inj.classes.length + 2) + 1

/-- Resolves a dependency for something at a position. -/
def resolveAt (inj : Injector) (location : Location) (dependency : Dependency) : Resolving Expr :=
  inj.resolveTo inj.depth { location } dependency

/-- The expression that answers a request. -/
def resolve (inj : Injector) (request : Request) : Resolving Expr :=
  inj.resolveAt request.location (inj.requested request.wanted)

/-- Answers a request by a statement. -/
def answer (inj : Injector) (request : Request) : Resolving Unit := do
  let value ← inj.resolve request
  modify (·.emit (.answer request value))

/-- The bindings that ask for an eager object of a class, with that class, as far as the class is
left eager. -/
def eagerBindings (inj : Injector) : List (OwnedBinding × ManagedClass) :=
  inj.bindings.filterMap fun b =>
    if b.binding.scopeGiven.isEager then
      ((b.binding.className?.bind inj.class?).filter (·.scope.isEager)).map (b, ·)
    else
      none

/-- Constructs every eager object before any request, in the order of the bindings. -/
def constructEager (inj : Injector) : Resolving Unit :=
  inj.eagerBindings.forM fun (b, c) => do
    let _ ← inj.resolveAt b.binding.location (.object c)

/-- Serves the entry point: its eager objects, then its requests. -/
def serve (inj : Injector) : Resolving Unit := do
  inj.constructEager
  inj.entry.requests.forM inj.answer

/-- The plan of the entry point as far as resolution has come. -/
def plan (inj : Injector) (p : Progress) : Plan :=
  { entry := inj.entry.name
    modules := inj.modules
    declarations := p.declarations.toList
    subclasses := p.subclasses
    statements := p.statements.toList }

end Injector

end Wiring
