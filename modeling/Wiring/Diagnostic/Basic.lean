import Wiring.Declaration.Basic

/-!
# Diagnostics

Nothing stops a run: whatever goes wrong is reported as a problem at a position, and the offending
declaration is dropped or the value replaced by `null`. The problem decides the severity, the
stage, the code and the message of its diagnostic.
-/

namespace Wiring

inductive Severity where
  | error
  | warning
deriving DecidableEq, Repr, Inhabited

/-- The word for a severity. -/
def Severity.text : Severity → String
  | error => "error"
  | warning => "warning"

/-- The stage that a problem belongs to. -/
inductive Stage where
  /-- Malformed declarations, dropped at registration. -/
  | declaration
  /-- Conflicting declarations, left out of resolution and interception. -/
  | ambiguity
  /-- Failed look-ups, replaced by `null`. -/
  | resolution
deriving DecidableEq, Repr, Inhabited

/-- The word for a stage. -/
def Stage.text : Stage → String
  | declaration => "declaration"
  | ambiguity => "ambiguity"
  | resolution => "resolution"

/-- What can go wrong. -/
inductive Problem where
  | ambiguousConstructor (className : String)
  | ambiguousMethod (className method : String)
  | ambiguousBinding (moduleName key : String)
  | scopeWithoutClass (key : String) (kind : SourceKind)
  | invalidSource (key : String)
  | emptySelectorArgument (selector : String)
  | missingInterceptorBody (moduleName : String)
  | undeclaredClass (className method : String)
  | setterNotFound (className setter : String)
  | emptyModuleList (entry : String)
  | unknownModule (entry moduleName : String)
  | bindingNotFound (key : String)
  | bindingNotProvider (key : String)
  | classNotFound (className : String)
  | cyclicBinding (path : String)
deriving DecidableEq

namespace Problem

/-- The stage of a problem. -/
def stage : Problem → Stage
  | ambiguousConstructor _ => .ambiguity
  | ambiguousMethod .. => .ambiguity
  | ambiguousBinding .. => .ambiguity
  | bindingNotFound _ => .resolution
  | bindingNotProvider _ => .resolution
  | classNotFound _ => .resolution
  | cyclicBinding _ => .resolution
  | _ => .declaration

/-- The severity of a problem. -/
def severity : Problem → Severity
  | setterNotFound .. => .warning
  | emptyModuleList _ => .warning
  | bindingNotProvider _ => .warning
  | _ => .error

/-- The code of a problem. -/
def code : Problem → String
  | ambiguousConstructor _ => "WEFT_AMBIGUOUS_CONSTRUCTOR"
  | ambiguousMethod .. => "WEFT_AMBIGUOUS_METHOD"
  | ambiguousBinding .. => "WEFT_AMBIGUOUS_BINDING"
  | scopeWithoutClass .. => "WEFT_SCOPE_ON_NON_TYPE_BINDING"
  | invalidSource _ => "WEFT_INVALID_BINDING_TARGET"
  | emptySelectorArgument _ => "WEFT_INVALID_MATCHER_ARGUMENT"
  | missingInterceptorBody _ => "WEFT_MISSING_INTERCEPTOR_BODY"
  | undeclaredClass .. => "WEFT_UNDECLARED_CLASS"
  | setterNotFound .. => "WEFT_SETTER_NOT_FOUND"
  | emptyModuleList _ => "WEFT_EMPTY_MODULE_LIST"
  | unknownModule .. => "WEFT_UNKNOWN_MODULE"
  | bindingNotFound _ => "WEFT_BINDING_NOT_FOUND"
  | bindingNotProvider _ => "WEFT_BINDING_NOT_PROVIDER"
  | classNotFound _ => "WEFT_CLASS_NOT_FOUND"
  | cyclicBinding _ => "WEFT_CYCLIC_BINDING"

/-- The names in the message of a problem, in their order there. -/
def args : Problem → List String
  | ambiguousConstructor className => [className]
  | ambiguousMethod className method => [className, method]
  | ambiguousBinding moduleName key => [key, moduleName]
  | scopeWithoutClass key kind => [key, kind.text]
  | invalidSource key => [key]
  | emptySelectorArgument selector => [selector]
  | missingInterceptorBody moduleName => [moduleName]
  | undeclaredClass className method => [method, className]
  | setterNotFound className setter => [setter, className]
  | emptyModuleList entry => [entry]
  | unknownModule entry moduleName => [entry, moduleName]
  | bindingNotFound key => [key]
  | bindingNotProvider key => [key]
  | classNotFound className => [className]
  | cyclicBinding path => [path]

/-- The message of a problem. -/
def message : Problem → String
  | ambiguousConstructor className =>
    "the class " ++ className ++ " is redeclared with a different constructor"
  | ambiguousMethod className method =>
    "the method " ++ className ++ "." ++ method ++ " is redeclared with different parameters"
  | ambiguousBinding moduleName key =>
    "the binding " ++ key ++ " is declared twice in " ++ moduleName ++ " with different attributes"
  | scopeWithoutClass key kind =>
    "the binding " ++ key ++ " is bound by " ++ kind.text ++ " which does not take a scope"
  | invalidSource key => "the binding " ++ Text.quoted key ++ " has no valid target"
  | emptySelectorArgument selector =>
    "the matcher " ++ selector ++ " requires a non-empty argument"
  | missingInterceptorBody moduleName => "an interceptor in " ++ moduleName ++ " has no body"
  | undeclaredClass className method =>
    "the method " ++ method ++ " of " ++ className ++ " is declared before its class"
  | setterNotFound className setter =>
    "the setter " ++ setter ++ " is not a method of " ++ className
  | emptyModuleList entry => "the injector " ++ entry ++ " uses no module"
  | unknownModule entry moduleName =>
    "the injector " ++ entry ++ " uses the undeclared module " ++ moduleName
  | bindingNotFound key => "the binding " ++ key ++ " is not found"
  | bindingNotProvider key =>
    "the parameter is specified as a provider but the binding " ++ key ++ " is not a provider"
  | classNotFound className => "the class " ++ className ++ " is not defined"
  | cyclicBinding path => "the binding graph resolves back into itself: " ++ path

end Problem

/-- A problem and the position it is reported at. -/
structure Diagnostic where
  problem : Problem
  location : Location
deriving DecidableEq

namespace Diagnostic

/-- The severity of the problem. -/
def severity (d : Diagnostic) : Severity :=
  d.problem.severity

/-- The problem is an error, not a warning. -/
def isError (d : Diagnostic) : Bool :=
  d.severity = .error

/-- One line with the position, the severity, the code and the message. -/
def text (d : Diagnostic) : String :=
  d.location.text ++ ": " ++ d.severity.text ++ " [" ++ d.problem.code ++ "] " ++ d.problem.message

end Diagnostic

end Wiring
