import Wiring.Selection

/-!
# Matchers

A matcher is asked whether selectors select classes and methods. What it makes ready of an argument it
keeps for the next question, in one table for each sort of argument.
-/

namespace Wiring

/-- What is kept under a name. If there is nothing, it is made and kept. -/
def reuse {α : Type} (make : String → α) (name : String) (kept : List (String × α)) :
    α × List (String × α) :=
  match kept.lookup name with
  | some found => (found, kept)
  | none =>
    let made := make name
    (made, (name, made) :: kept)

/-- What is needed to answer, and the arguments that have been made ready so far. -/
structure Matcher where
  bases : Bases
  mode : NamespaceMode
  globs : List (String × Pattern CharSet) := []
  exacts : List (String × NamespaceTest) := []
  fronts : List (String × NamespaceTest) := []

namespace Matcher

/-- Whether the class is selected, and the matcher afterwards. -/
def selectsClass [Dialect] (matcher : Matcher) (s : ClassSelector) (c : ClassDecl) : Bool × Matcher :=
  match s with
  | .inNamespace argument =>
    let (test, exacts) := reuse (NamespaceTest.exact matcher.mode) argument matcher.exacts
    (test.acceptsWhole (c.namespaceCandidate matcher.mode), { matcher with exacts })
  | .subNamespace argument =>
    let (test, fronts) := reuse (NamespaceTest.front matcher.mode) argument matcher.fronts
    (test.acceptsFront c.name, { matcher with fronts })
  | .subclassOf argument => (matcher.bases.isSubclass c argument, matcher)
  | .instanceOf argument => (c.name = argument, matcher)
  | .any => (true, matcher)

/-- Whether the method is selected, and the matcher afterwards. -/
def selectsMethod (matcher : Matcher) (s : MethodSelector) (m : MethodDecl) : Bool × Matcher :=
  match s with
  | .like argument =>
    let (pattern, globs) := reuse Pattern.ofGlob argument matcher.globs
    (pattern.occursIn m.name, { matcher with globs })
  | .any => (true, matcher)

end Matcher

end Wiring
