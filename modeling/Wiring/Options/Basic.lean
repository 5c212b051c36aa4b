/-!
# Options

The names given to generated things, and the choices that a run leaves open.
-/

namespace Wiring

/-- How a selector compares a namespace. -/
inductive NamespaceMode where
  /-- Character by character. -/
  | literal
  /-- As a pattern whose dots match any character. -/
  | pattern
deriving DecidableEq, Repr, Inhabited

structure Options where
  /-- A parameter with this ending asks for the provider of the key before it. -/
  providerSuffix : String := "Provider"
  /-- Starts the variables of singletons. -/
  singletonPrefix : String := "singletonInstance"
  /-- Starts the variables that hold an object while its setters are called. -/
  instancePrefix : String := "instance$"
  /-- Starts the names of subclasses that intercept. -/
  subclassPrefix : String := "Enhanced$"
  /-- Starts the names of interceptors. -/
  interceptorPrefix : String := "interceptor$"
  /-- The variable that holds the arguments of an intercepted call. -/
  interceptorArgs : String := "interceptor$args"
  /-- The variable that holds the receiver of an intercepted call. -/
  interceptorThis : String := "interceptor$this"
  /-- Whether a dependency on an object under construction is refused. -/
  detectCycles : Bool := true
  namespaceMode : NamespaceMode := .literal
deriving DecidableEq, Repr, Inhabited

/-- The key before the provider suffix. A name that is nothing but the suffix has none. -/
def Options.providedKey? (options : Options) (name : String) : Option String :=
  let suffix := options.providerSuffix.toList
  let letters := name.toList
  if suffix.isSuffixOf letters ∧ suffix.length < letters.length then
    some (String.ofList (letters.take (letters.length - suffix.length)))
  else
    none

end Wiring
