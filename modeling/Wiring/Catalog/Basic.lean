import Wiring.Declaration.Basic

/-!
# The declaration catalog

The checked declarations, found by name.
-/

namespace Wiring

/-- Classes, modules and entry points in the order of their first declaration. -/
structure Catalog where
  classes : List ClassDecl := []
  modules : List BindingModule := []
  entries : List EntryPoint := []
deriving DecidableEq, Inhabited

namespace Catalog

/-- The class of a name. -/
def class? (catalog : Catalog) (name : String) : Option ClassDecl :=
  catalog.classes.find? (·.name = name)

/-- The place of the class of a name. -/
def classPosition? (catalog : Catalog) (name : String) : Option Nat :=
  catalog.classes.findIdx? (·.name = name)

/-- The module of a name. -/
def module? (catalog : Catalog) (name : String) : Option BindingModule :=
  catalog.modules.find? (·.name = name)

/-- The first entry point of a name. -/
def entry? (catalog : Catalog) (name : String) : Option EntryPoint :=
  catalog.entries.find? (·.name = name)

end Catalog

end Wiring
