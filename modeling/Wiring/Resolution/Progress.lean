import Wiring.Diagnostic.Basic
import Wiring.Interception

/-!
# Progress

What resolution changes as it goes: the variables it has taken, the subclasses it has added, the
statements it has emitted and the problems it has reported, and how many of the functions around
the current step are only called later.
-/

namespace Wiring

/-- The variable of a shared object. It is lazy while only functions that are called later assign
it. -/
structure SingletonVariable where
  className : String
  name : String
  lazy : Bool
deriving DecidableEq

/-- The outcome of resolution so far. -/
structure Progress where
  /-- The variables of singletons, in the order in which they were taken. -/
  singletons : List SingletonVariable := []
  /-- The number of variables taken for setter calls. -/
  temporaries : Nat := 0
  /-- All variables taken, in order. -/
  declarations : Array String := #[]
  subclasses : List InterceptingClass := []
  statements : Array PlanStatement := #[]
  reports : Array Diagnostic := #[]
  /-- The number of functions around the current step that are only called later. -/
  deferred : Nat := 0
deriving DecidableEq

namespace Progress

/-- The variable of a class. -/
def singleton? (p : Progress) (className : String) : Option SingletonVariable :=
  p.singletons.find? (·.className = className)

/-- The class has its subclass already. -/
def hasSubclass (p : Progress) (className : String) : Bool :=
  p.subclasses.any (·.base = className)

/-- Adds the subclass of a class that is intercepted, unless it is there already. -/
def addSubclass (inj : Injector) (c : ManagedClass) (p : Progress) : Progress :=
  if c.isIntercepted && !p.hasSubclass c.name then
    { p with subclasses := p.subclasses ++ [inj.interceptingClass c] }
  else
    p

@[simp]
theorem singletons_addSubclass (inj : Injector) (c : ManagedClass) (p : Progress) :
  (p.addSubclass inj c).singletons = p.singletons
  := by
  unfold addSubclass
  split <;> rfl

@[simp]
theorem singleton?_addSubclass (inj : Injector) (c : ManagedClass) (p : Progress)
    (className : String) :
  (p.addSubclass inj c).singleton? className = p.singleton? className
  := by
  simp [singleton?]

@[simp]
theorem declarations_addSubclass (inj : Injector) (c : ManagedClass) (p : Progress) :
  (p.addSubclass inj c).declarations = p.declarations
  := by
  unfold addSubclass
  split <;> rfl

@[simp]
theorem statements_addSubclass (inj : Injector) (c : ManagedClass) (p : Progress) :
  (p.addSubclass inj c).statements = p.statements
  := by
  unfold addSubclass
  split <;> rfl

@[simp]
theorem reports_addSubclass (inj : Injector) (c : ManagedClass) (p : Progress) :
  (p.addSubclass inj c).reports = p.reports
  := by
  unfold addSubclass
  split <;> rfl

@[simp]
theorem deferred_addSubclass (inj : Injector) (c : ManagedClass) (p : Progress) :
  (p.addSubclass inj c).deferred = p.deferred
  := by
  unfold addSubclass
  split <;> rfl

/-- The class constructed in place of a class as things stand: its subclass, once there is one. -/
def standIn (inj : Injector) (c : ManagedClass) (p : Progress) : String :=
  if p.hasSubclass c.name then inj.interceptingName c.name else c.name

/-- The variable that the next singleton takes. -/
def nextSingleton (options : Options) (p : Progress) : String :=
  options.singletonPrefix ++ toString p.singletons.length

/-- Takes the next variable for the singleton of a class. -/
def takeSingleton (options : Options) (className : String) (lazy : Bool) (p : Progress) :
    Progress :=
  let name := p.nextSingleton options
  { p with
    singletons := p.singletons ++ [{ className, name, lazy }]
    declarations := p.declarations.push name }

/-- The variable that the next object with setters takes. -/
def nextTemporary (options : Options) (p : Progress) : String :=
  options.instancePrefix ++ toString p.temporaries

/-- Takes the next variable for an object with setters. -/
def takeTemporary (options : Options) (p : Progress) : Progress :=
  { p with
    temporaries := p.temporaries + 1
    declarations := p.declarations.push (p.nextTemporary options) }

/-- Says of the variable of a class whether it is lazy. -/
def setLazy (className : String) (lazy : Bool) (p : Progress) : Progress :=
  { p with
    singletons := p.singletons.map fun s =>
      if s.className = className then { s with lazy } else s }

/-- What is constructed now is assigned only when a function is called. -/
def isDeferred (p : Progress) : Bool :=
  0 < p.deferred

/-- Enters a function that is only called later. -/
def defer (p : Progress) : Progress :=
  { p with deferred := p.deferred + 1 }

/-- Leaves such a function. -/
def resume (p : Progress) : Progress :=
  { p with deferred := p.deferred - 1 }

/-- Emits a statement. -/
def emit (statement : PlanStatement) (p : Progress) : Progress :=
  { p with statements := p.statements.push statement }

/-- Reports a problem. -/
def report (problem : Problem) (location : Location) (p : Progress) : Progress :=
  { p with reports := p.reports.push { problem, location } }

end Progress

end Wiring
