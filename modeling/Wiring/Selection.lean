import Wiring.Catalog.Lineage
import Wiring.Pattern.Glob
import Wiring.Pattern.Namespace

/-!
# Selection

Which classes and methods a selector selects.
-/

namespace Wiring

/-- The name that an exact namespace is compared with. As a pattern it is compared with the whole
name of a class outside of any namespace. -/
def ClassDecl.namespaceCandidate (mode : NamespaceMode) (c : ClassDecl) : String :=
  if mode = .pattern ∧ ¬ isDotted c.name then c.name else c.namespaceName

/-- The class is selected. -/
def ClassSelector.selects [Dialect] (bases : Bases) (mode : NamespaceMode) (s : ClassSelector)
    (c : ClassDecl) : Bool :=
  match s with
  | .inNamespace argument =>
    (NamespaceTest.exact mode argument).acceptsWhole (c.namespaceCandidate mode)
  | .subNamespace argument => (NamespaceTest.front mode argument).acceptsFront c.name
  | .subclassOf argument => bases.isSubclass c argument
  | .instanceOf argument => c.name = argument
  | .any => true

/-- The method is selected. -/
def MethodSelector.selects (s : MethodSelector) (m : MethodDecl) : Bool :=
  match s with
  | .like argument => globMatches argument m.name
  | .any => true

end Wiring
