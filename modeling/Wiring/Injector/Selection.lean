import Wiring.Diagnostic.Reported
import Wiring.Injector.Basic
import Wiring.Matcher

/-!
# Selected methods

Finds out which interceptors of an injector select which methods of its classes. All questions go to
one matcher. A method whose declarations disagree is selected by none; it is reported once if one would
select it.
-/

namespace Wiring

/-- What goes on beside a matcher. -/
abbrev Matching := StateT Matcher Reported

/-- The places with one more at the end, unless it is there already. -/
def addPlace (place : Nat) (places : List Nat) : List Nat :=
  if place ∈ places then places else places ++ [place]

/-- A method that an interceptor selects: the place of the interceptor, and the method with its position
in the class. -/
structure Hit where
  place : Nat
  method : MethodDecl
  position : Nat
deriving DecidableEq

/-- A class while interceptors are tried on it. `reported` are the positions of the methods that have
been reported as ambiguous. -/
structure Annotation where
  managed : ManagedClass
  reported : List Nat := []
deriving DecidableEq

namespace Annotation

/-- The class after a further hit. -/
def note (a : Annotation) (hit : Hit) : Reported Annotation :=
  if hit.method.ambiguous then
    if hit.position ∈ a.reported then
      { value := a }
    else do
      Reported.one (.ambiguousMethod a.managed.name hit.method.name) hit.method.location
      return { a with reported := hit.position :: a.reported }
  else
    { value :=
        { a with
          managed :=
            { a.managed with
              selected := a.managed.selected.modify hit.position (addPlace hit.place)
              isIntercepted := true } } }

/-- Tries a selector, the one of the interceptor at a place, on methods. -/
def tryMethods (methods : List MethodDecl) (place : Nat) (s : MethodSelector) (a : Annotation) :
    Matching Annotation :=
  methods.zipIdx.foldlM
    (fun a (method, position) => do
      if ← modifyGet (·.selectsMethod s method) then
        a.note { place, method, position }
      else
        return a)
    a

/-- Tries an interceptor at a place on a class. -/
def tryInterceptor [Dialect] (c : ClassDecl) (i : Interceptor) (place : Nat) (a : Annotation) :
    Matching Annotation := do
  if ← modifyGet (·.selectsClass i.classSelector c) then
    a.tryMethods c.methods place i.methodSelector
  else
    return a

end Annotation

namespace Injector

variable [Dialect]

/-- The class after all interceptors of the injector have been tried on it. -/
def annotateClass (inj : Injector) (c : ManagedClass) : Matching ManagedClass := do
  let untried : Annotation := { managed := c }
  let tried ← inj.interceptors.zipIdx.foldlM
    (fun a (i, place) => a.tryInterceptor c.decl i.interceptor place) untried
  return tried.managed

/-- The injector after its interceptors have been tried on its classes. -/
def annotate (inj : Injector) : Matching Injector := do
  let classes ← inj.classes.mapM inj.annotateClass
  return { inj with classes }

/-- The injector after its interceptors have been tried by a new matcher. -/
def select (catalog : Catalog) (mode : NamespaceMode) (inj : Injector) : Reported Injector :=
  inj.annotate.run' { bases := catalog.bases, mode }

end Injector

end Wiring
