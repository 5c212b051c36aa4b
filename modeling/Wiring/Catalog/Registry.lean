import Wiring.Catalog.Basic
import Wiring.Diagnostic.Reported
import Wiring.Options.Basic
import Wiring.Text.Blank

/-!
# Registration

Declarations come one after the other. Those of one class or of one module are merged; one that is
malformed, or in conflict with an earlier one, is reported and dropped, and its siblings are kept.
At the end the setters and module lists are checked against everything that was declared.
-/

namespace Wiring

/-- A module under registration, with the keys that are left out because two of its bindings
disagree. -/
structure OpenModule where
  decl : BindingModule
  ambiguous : List String := []
deriving DecidableEq, Inhabited

/-- What has been declared so far. -/
structure Registry where
  classes : List ClassDecl := []
  modules : List OpenModule := []
  entries : List EntryPoint := []
deriving DecidableEq, Inhabited

/-! ### Classes -/

namespace ClassDecl

/-- The class with a further method. The first declaration of a method stands; a later one with
other parameters makes it ambiguous. -/
def addMethod (c : ClassDecl) (m : MethodDecl) : ClassDecl :=
  match c.method? m.name with
  | none => { c with methods := c.methods ++ [m] }
  | some held =>
    if held.params = m.params then c
    else
      { c with
        methods := c.methods.map fun other =>
          if other.name = m.name then { other with ambiguous := true } else other }

/-- The class with a further setter, unless it is there already. -/
def addSetter (c : ClassDecl) (setter : String) : ClassDecl :=
  if setter ∈ c.setters then c else { c with setters := c.setters ++ [setter] }

/-- A class and a later declaration of it: the first constructor and the first base stand, and
setters are added. Its methods are declared separately. -/
def merge (c later : ClassDecl) : ClassDecl :=
  later.setters.foldl addSetter
    { c with
      duplicated := c.duplicated || c.params ≠ later.params
      base := c.base.or later.base }

end ClassDecl

namespace Registry

/-- The class of a name. -/
def class? (r : Registry) (name : String) : Option ClassDecl :=
  r.classes.find? (·.name = name)

/-- A change of the class of a name. -/
def updateClass (r : Registry) (name : String) (change : ClassDecl → ClassDecl) : Registry :=
  { r with classes := r.classes.map fun c => if c.name = name then change c else c }

/-- Declares a method of a class, which has to be declared already. -/
def addMethod (r : Registry) (className : String) (m : MethodDecl) : Reported Registry :=
  match r.class? className with
  | some _ => { value := r.updateClass className (·.addMethod m) }
  | none => do
    Reported.one (.undeclaredClass className m.name) m.location
    return r

/-- Declares a class without the methods inside the declaration. -/
def addConstructor (r : Registry) (c : ClassDecl) : Reported Registry :=
  match r.class? c.name with
  | none => { value := { r with classes := r.classes ++ [{ c with methods := [] }] } }
  | some held => do
    if held.params ≠ c.params then
      Reported.one (.ambiguousConstructor c.name) c.location
    return r.updateClass c.name (·.merge c)

/-- Declares a class and its methods. -/
def addClass (r : Registry) (c : ClassDecl) : Reported Registry := do
  let r ← r.addConstructor c
  c.methods.foldlM (fun r m => r.addMethod c.name m) r

end Registry

/-! ### Modules -/

/-- What is wrong with a binding on its own. -/
def Binding.fault? (b : Binding) : Option Problem :=
  if b.key = "" ∨ b.className? = some "" then
    some (.invalidSource b.key)
  else if b.scope.isSome ∧ b.kind ≠ .toType then
    some (.scopeWithoutClass b.key b.kind)
  else
    none

/-- What is wrong with an interceptor on its own. -/
def Interceptor.fault? (i : Interceptor) : Option Problem :=
  if i.classSelector.argument? = some "" then
    some (.emptySelectorArgument i.classSelector.text)
  else if i.methodSelector.argument? = some "" then
    some (.emptySelectorArgument i.methodSelector.text)
  else if Text.isBlankText i.body then
    some (.missingInterceptorBody i.owner)
  else
    none

namespace OpenModule

/-- The module with a further binding. Of two bindings of a key that agree the first one stands;
if they disagree the key is left out for good. -/
def addBinding (m : OpenModule) (b : Binding) : Reported OpenModule :=
  let b := { b with owner := m.decl.name }
  match b.fault? with
  | some problem => do
    Reported.one problem b.location
    return m
  | none =>
    if b.key ∈ m.ambiguous then
      { value := m }
    else
      match m.decl.binding? b.key with
      | none => { value := { m with decl := { m.decl with bindings := m.decl.bindings ++ [b] } } }
      | some held =>
        if held.agrees b then
          { value := m }
        else do
          Reported.one (.ambiguousBinding m.decl.name b.key) b.location
          return {
            decl := { m.decl with bindings := m.decl.bindings.filter (·.key ≠ b.key) }
            ambiguous := b.key :: m.ambiguous }

/-- The module with a further interceptor, which is named by its place. -/
def addInterceptor (stem : String) (m : OpenModule) (i : Interceptor) : Reported OpenModule :=
  let i := { i with owner := m.decl.name }
  match i.fault? with
  | some problem => do
    Reported.one problem i.location
    return m
  | none =>
    let named := { i with name := stem ++ toString m.decl.interceptors.length }
    { value := { m with decl := { m.decl with interceptors := m.decl.interceptors ++ [named] } } }

/-- The module extended by a declaration of it. -/
def extend (stem : String) (m : OpenModule) (decl : BindingModule) : Reported OpenModule := do
  let m ← decl.bindings.foldlM addBinding m
  decl.interceptors.foldlM (addInterceptor stem) m

end OpenModule

namespace Registry

/-- The module of a name. -/
def module? (r : Registry) (name : String) : Option OpenModule :=
  r.modules.find? (·.decl.name = name)

/-- The registry with a module put in the place of the one of its name, or at the end. -/
def putModule (r : Registry) (m : OpenModule) : Registry :=
  match r.module? m.decl.name with
  | some _ =>
    { r with
      modules := r.modules.map fun held => if held.decl.name = m.decl.name then m else held }
  | none => { r with modules := r.modules ++ [m] }

/-- Declares a module. The first declaration of it gives its position and its set-up method, and
later ones extend it. -/
def addModule (options : Options) (r : Registry) (decl : BindingModule) :
    Reported Registry := do
  let empty : OpenModule := { decl := { decl with bindings := [], interceptors := [] } }
  let held := (r.module? decl.name).getD empty
  let extended ← held.extend options.interceptorPrefix decl
  return r.putModule extended

/-! ### Entry points and the end of registration -/

/-- Declares an entry point. -/
def addEntry (r : Registry) (e : EntryPoint) : Reported Registry := do
  if e.modules = [] then
    Reported.one (.emptyModuleList e.name) e.location
  return { r with entries := r.entries ++ [e] }

/-- The class with those of its setters that are methods; the others are reported. -/
def checkSetters (c : ClassDecl) : Reported ClassDecl :=
  { value := { c with setters := c.setters.filter fun setter => (c.method? setter).isSome }
    reports := (c.setters.filter fun setter => (c.method? setter).isNone).map fun setter =>
      { problem := .setterNotFound c.name setter, location := c.location } }

/-- The entry point with those of its modules that are declared; the others are reported. -/
def checkModules (r : Registry) (e : EntryPoint) : Reported EntryPoint :=
  { value := { e with modules := e.modules.filter fun name => (r.module? name).isSome }
    reports := (e.modules.filter fun name => (r.module? name).isNone).map fun name =>
      { problem := .unknownModule e.name name, location := e.location } }

/-- The catalog of everything declared. -/
def close (r : Registry) : Reported Catalog := do
  let classes ← r.classes.mapM checkSetters
  let entries ← r.entries.mapM r.checkModules
  return { classes, modules := r.modules.map (·.decl), entries }

end Registry

/-- One declaration. -/
inductive Declaration where
  | ofClass (decl : ClassDecl)
  | ofMethod (className : String) (decl : MethodDecl)
  | ofModule (decl : BindingModule)
  | ofEntry (decl : EntryPoint)

/-- The registry after a further declaration. -/
def Registry.add (options : Options) (r : Registry) : Declaration → Reported Registry
  | .ofClass decl => r.addClass decl
  | .ofMethod className decl => r.addMethod className decl
  | .ofModule decl => r.addModule options decl
  | .ofEntry decl => r.addEntry decl

/-- The registry after a list of declarations. -/
def Registry.addAll (options : Options) (r : Registry) (declarations : List Declaration) :
    Reported Registry :=
  declarations.foldlM (add options) r

/-- All declarations of a program, classes first and entry points last. -/
def Program.all (d : Program) : List Declaration :=
  d.classes.map .ofClass ++ d.modules.map .ofModule ++ d.entries.map .ofEntry

/-- The catalog of the declarations of a program. -/
def Program.register (options : Options) (d : Program) : Reported Catalog := do
  let r ← Registry.addAll options {} d.all
  r.close

end Wiring
