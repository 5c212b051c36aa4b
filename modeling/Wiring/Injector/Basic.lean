import Std.Data.HashMap
import Wiring.Catalog.Basic
import Wiring.Options.Basic
import Wiring.Plan.Basic

/-!
# Injectors

What serves one entry point: the modules it lists, without repeats, flattened into one table of
bindings and one list of interceptors, and every declared class with its scope. Of several
bindings of a key the first one counts; of several scopes asked for a class, the last one.
-/

namespace Wiring

/-- A binding and the variable of the module that declares it. -/
structure OwnedBinding where
  binding : Binding
  handle : String
deriving DecidableEq

/-- An interceptor and the variable of the module that declares it. -/
structure OwnedInterceptor where
  interceptor : Interceptor
  handle : String
deriving DecidableEq

/-- A class, the scope of its objects, and for each of its methods the places of the interceptors
that select it. It is intercepted if there are any. -/
structure ManagedClass where
  decl : ClassDecl
  scope : Scope
  selected : List (List Nat)
  isIntercepted : Bool := false
deriving DecidableEq

namespace ManagedClass

/-- The name of the class. -/
def name (c : ManagedClass) : String :=
  c.decl.name

/-- The places of the interceptors that select the method of a name. -/
def selectedOn (c : ManagedClass) (method : String) : List Nat :=
  (((c.decl.methods.zip c.selected).find? (·.1.name = method)).map (·.2)).getD []

end ManagedClass

/-- All that resolution for one entry point depends on. -/
structure Injector where
  options : Options
  entry : EntryPoint
  modules : List ModuleHandle
  bindings : List OwnedBinding
  interceptors : List OwnedInterceptor
  classes : List ManagedClass
deriving DecidableEq

namespace Injector

/-- The class of a name. -/
def class? (inj : Injector) (name : String) : Option ManagedClass :=
  inj.classes.find? (·.name = name)

/-- The binding of a key. -/
def binding? (inj : Injector) (key : String) : Option OwnedBinding :=
  inj.bindings.find? (·.binding.key = key)

end Injector

/-! ### Flattening -/

/-- Bindings of distinct keys, with the place of every key that is bound. -/
structure BindingTable where
  rows : List OwnedBinding := []
  places : List (String × Nat) := []
deriving DecidableEq, Inhabited

namespace BindingTable

/-- The place of the binding of a key. -/
def place? (table : BindingTable) (key : String) : Option Nat :=
  table.places.lookup key

/-- The table with a further binding, unless its key is bound already. -/
def add (table : BindingTable) (b : OwnedBinding) : BindingTable :=
  if (table.place? b.binding.key).isSome then table
  else
    { rows := table.rows ++ [b]
      places := (b.binding.key, table.rows.length) :: table.places }

end BindingTable

/-- What the modules that an entry point lists have come to so far. `seen` are the names of these
modules. -/
structure Gathered where
  seen : List String := []
  modules : List ModuleHandle := []
  table : BindingTable := {}
  interceptors : List OwnedInterceptor := []
deriving DecidableEq, Inhabited

namespace Gathered

/-- With a further module. Its variable is given to everything that it declares. -/
def addModule (g : Gathered) (m : BindingModule) : Gathered :=
  { g with
    modules := g.modules ++ [{ name := m.handle, moduleName := m.name, configure := m.configure }]
    table := m.bindings.foldl (fun table b => table.add ⟨b, m.handle⟩) g.table
    interceptors := g.interceptors ++ m.interceptors.map fun i => ⟨i, m.handle⟩ }

/-- With the module of a name, if there is one and it has not been listed before. -/
def visit (catalog : Catalog) (g : Gathered) (name : String) : Gathered :=
  match catalog.module? name with
  | none => g
  | some m => if name ∈ g.seen then g else { g.addModule m with seen := name :: g.seen }

/-- What the modules of the names come to, one after the other. -/
def ofNames (catalog : Catalog) (names : List String) : Gathered :=
  names.foldl (visit catalog) {}

end Gathered

namespace Injector

/-- The scopes that some bindings ask for classes. Of several for a class the last one counts. -/
def scopesAsked (bindings : List OwnedBinding) : Std.HashMap String Scope :=
  bindings.foldl
    (fun scopes b =>
      match b.binding.className? with
      | some className => scopes.insert className b.binding.scopeGiven
      | none => scopes)
    ∅

/-- A class before any interceptor is looked at. -/
def plainClass (scopes : Std.HashMap String Scope) (c : ClassDecl) : ManagedClass :=
  { decl := c
    scope := scopes.getD c.name .prototype
    selected := c.methods.map fun _ => [] }

/-- The injector of an entry point. -/
def ofEntry (catalog : Catalog) (options : Options) (entry : EntryPoint) : Injector :=
  let gathered := Gathered.ofNames catalog entry.modules
  let scopes := scopesAsked gathered.table.rows
  { options
    entry
    modules := gathered.modules
    bindings := gathered.table.rows
    interceptors := gathered.interceptors
    classes := catalog.classes.map (plainClass scopes) }

end Injector

end Wiring
