import Wiring.Expr.Equality
import Wiring.Location
import Wiring.Name
import Wiring.Scope
import Wiring.Text.Quoted

/-!
# Declarations

What a program declares for the injector: classes with their methods, modules that bind keys and
intercept methods, and entry points that ask for objects. Nothing here is checked yet; the
registry does that.
-/

namespace Wiring

/-! ### Classes -/

/-- A method of a class. It is ambiguous if it was declared again with other parameters. -/
structure MethodDecl where
  name : String
  params : List String := []
  ambiguous : Bool := false
  location : Location := {}
deriving DecidableEq, Inhabited

/-- A class. The parameters of its constructor and of its setters are keys to be injected. It is
duplicated if it was declared again with other parameters. -/
structure ClassDecl where
  name : String
  params : List String := []
  base : Option String := none
  methods : List MethodDecl := []
  setters : List String := []
  duplicated : Bool := false
  location : Location := {}
deriving DecidableEq, Inhabited

namespace ClassDecl

/-- The namespace of the class. -/
def namespaceName (c : ClassDecl) : String :=
  namespaceOf c.name

/-- The method of a name. -/
def method? (c : ClassDecl) (name : String) : Option MethodDecl :=
  c.methods.find? (·.name = name)

/-- The parameters of the method of a name, none if there is no such method. -/
def methodParams (c : ClassDecl) (name : String) : List String :=
  ((c.method? name).map (·.params)).getD []

end ClassDecl

/-! ### Bindings -/

/-- The ways to bind a key. -/
inductive SourceKind where
  | toType
  | toInstance
  | toProvider
deriving DecidableEq, Inhabited

/-- The name of the way to bind. -/
def SourceKind.text : SourceKind → String
  | .toType => "to"
  | .toInstance => "toInstance"
  | .toProvider => "toProvider"

/-- What a key is bound to. -/
inductive Source where
  /-- An object of a class. -/
  | type (className : String)
  /-- An expression, used as it is. -/
  | value (expr : Expr)
  /-- The value of a function of the module, called with injected arguments. -/
  | provider (params : List String)
deriving DecidableEq

/-- A key bound by a module. Only a binding to a class takes a scope. -/
structure Binding where
  key : String
  source : Source
  scope : Option Scope := none
  owner : String := ""
  location : Location := {}
deriving DecidableEq

namespace Binding

/-- The way the key is bound. -/
def kind (b : Binding) : SourceKind :=
  match b.source with
  | .type _ => .toType
  | .value _ => .toInstance
  | .provider _ => .toProvider

/-- The scope that the binding gives to its class. -/
def scopeGiven (b : Binding) : Scope :=
  b.scope.getD .prototype

/-- The class that the key is bound to. -/
def className? (b : Binding) : Option String :=
  match b.source with
  | .type className => some className
  | _ => none

/-- Two bindings of one key that do not contradict each other. -/
def agrees (a b : Binding) : Bool :=
  a.key = b.key && a.kind = b.kind && a.scopeGiven = b.scopeGiven

end Binding

/-! ### Interceptors -/

/-- Selects classes. -/
inductive ClassSelector where
  /-- The classes directly in a namespace. -/
  | inNamespace (argument : String)
  /-- The classes whose name starts with a namespace. -/
  | subNamespace (argument : String)
  /-- The classes with a type among their bases. -/
  | subclassOf (argument : String)
  /-- The class of a name. -/
  | instanceOf (argument : String)
  | any
deriving DecidableEq, Inhabited

namespace ClassSelector

/-- The argument of the selector. -/
def argument? : ClassSelector → Option String
  | inNamespace argument => some argument
  | subNamespace argument => some argument
  | subclassOf argument => some argument
  | instanceOf argument => some argument
  | any => none

/-- The name of the selector. -/
def word : ClassSelector → String
  | inNamespace _ => "inNamespace"
  | subNamespace _ => "inSubnamespace"
  | subclassOf _ => "subclassOf"
  | instanceOf _ => "instanceOf"
  | any => "any"

/-- The text of the selector as a call. -/
def text (m : ClassSelector) : String :=
  m.word ++ "(" ++ (m.argument?.map Text.quoted).getD "" ++ ")"

end ClassSelector

/-- Selects methods of a class. -/
inductive MethodSelector where
  /-- The methods whose name starts as a glob says. -/
  | like (argument : String)
  | any
deriving DecidableEq, Inhabited

namespace MethodSelector

/-- The argument of the selector. -/
def argument? : MethodSelector → Option String
  | like argument => some argument
  | any => none

/-- The name of the selector. -/
def word : MethodSelector → String
  | like _ => "like"
  | any => "any"

/-- The text of the selector as a call. -/
def text (m : MethodSelector) : String :=
  m.word ++ "(" ++ (m.argument?.map Text.quoted).getD "" ++ ")"

end MethodSelector

/-- What the body of an interceptor reads of the intercepted call. -/
structure CallReads where
  receiver : Bool := false
  className : Bool := false
  methodName : Bool := false
deriving DecidableEq, Inhabited

namespace CallReads

/-- Reads everything. -/
def all : CallReads :=
  { receiver := true, className := true, methodName := true }

/-- Reads also what an accessor of the invocation gives. -/
def withAccessor (c : CallReads) : String → CallReads
  | "getThis" => { c with receiver := true }
  | "getClassName" => { c with className := true }
  | "getMethodName" => { c with methodName := true }
  | "getQualifiedName" => { c with className := true, methodName := true }
  | _ => c

/-- Reads what the accessors give. -/
def ofAccessors (accessors : List String) : CallReads :=
  accessors.foldl withAccessor {}

end CallReads

/-- A function of a module that runs around the methods it selects. -/
structure Interceptor where
  classSelector : ClassSelector
  methodSelector : MethodSelector
  body : String
  reads : CallReads := {}
  name : String := ""
  owner : String := ""
  location : Location := {}
deriving DecidableEq, Inhabited

/-! ### Modules and entry points -/

/-- A named set of bindings and interceptors. `configure` is the method that sets it up. -/
structure BindingModule where
  name : String
  bindings : List Binding := []
  interceptors : List Interceptor := []
  configure : String := "configure"
  location : Location := {}
deriving DecidableEq, Inhabited

namespace BindingModule

/-- The binding of a key. -/
def binding? (m : BindingModule) (key : String) : Option Binding :=
  m.bindings.find? (·.key = key)

/-- The variable that holds the module. -/
def handle (m : BindingModule) : String :=
  identifierOf m.name

end BindingModule

/-- What a request asks for. -/
inductive Wanted where
  | ofClass (name : String)
  | ofKey (name : String)
deriving DecidableEq, Inhabited

/-- The text of the request as a call. -/
def Wanted.text : Wanted → String
  | .ofClass name => "getInstance(" ++ name ++ ")"
  | .ofKey name => "getInstanceByName(" ++ Text.quoted name ++ ")"

/-- A place that asks for an object. -/
structure Request where
  wanted : Wanted
  location : Location := {}
deriving DecidableEq, Inhabited

/-- An injector: the modules it uses and the objects it is asked for, both in order. -/
structure EntryPoint where
  name : String
  modules : List String
  requests : List Request := []
  location : Location := {}
deriving DecidableEq, Inhabited

/-- All declarations of a program. -/
structure Program where
  classes : List ClassDecl := []
  modules : List BindingModule := []
  entries : List EntryPoint := []
deriving DecidableEq, Inhabited

end Wiring
