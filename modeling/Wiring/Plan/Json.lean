import Wiring.Declaration.Json
import Wiring.Plan.Basic

/-!
# Plans as JSON

Records are objects with one field per component; a statement of an entry point is an object with
its form as the only key.
-/

namespace Wiring

open Json

/-- The JSON form of an override. -/
def Override.toJson (m : Override) : Json :=
  .obj [("name", .str m.name), ("params", .ofTexts m.params), ("body", .arr (Stmt.toJsons m.body))]

/-- The statements that a value stands for. -/
def readBody (json : Json) : Read (List Stmt) :=
  json.readList (Stmt.ofJson ·.1)

/-- The override that a value stands for. -/
def Override.ofJson (json : Json) : Read Override :=
  json.readRecord "MethodOverride" ["name", "params", "body"] fun slots =>
    Override.mk
      <$> required "name" slots (·.1.readText)
      <*> required "params" slots (·.1.readTexts)
      <*> required "body" slots (readBody ·.1)

/-- The JSON form of a subclass. -/
def InterceptingClass.toJson (c : InterceptingClass) : Json :=
  .obj [("name", .str c.name), ("base", .str c.base), ("params", .ofTexts c.params),
    ("constructor", .arr (Stmt.toJsons c.constructor)),
    ("methods", .ofList Override.toJson c.methods)]

/-- The subclass that a value stands for. -/
def InterceptingClass.ofJson (json : Json) : Read InterceptingClass :=
  json.readRecord "EnhancedClass" ["name", "base", "params", "constructor", "methods"] fun slots =>
    InterceptingClass.mk
      <$> required "name" slots (·.1.readText)
      <*> required "base" slots (·.1.readText)
      <*> required "params" slots (·.1.readTexts)
      <*> required "constructor" slots (readBody ·.1)
      <*> required "methods" slots (·.1.readList (Override.ofJson ·.1))

/-- The JSON form of a module handle. -/
def ModuleHandle.toJson (m : ModuleHandle) : Json :=
  .obj [("variable", .str m.name), ("module", .str m.moduleName), ("configure", .str m.configure)]

/-- The module handle that a value stands for. -/
def ModuleHandle.ofJson (json : Json) : Read ModuleHandle :=
  json.readRecord "ModuleVariable" ["variable", "module", "configure"] fun slots =>
    ModuleHandle.mk
      <$> required "variable" slots (·.1.readText)
      <*> required "module" slots (·.1.readText)
      <*> required "configure" slots (·.1.readText)

/-- The JSON form of a statement of an entry point. -/
def PlanStatement.toJson : PlanStatement → Json
  | .construct className target value =>
    .obj [("materialize", .obj [("class", .str className), ("variable", .str target),
      ("value", value.toJson)])]
  | .answer request value =>
    .obj [("inject", .obj [("request", request.toJson), ("value", value.toJson)])]

/-- The statement of an entry point that a value stands for. -/
def PlanStatement.ofJson (json : Json) : Read PlanStatement := do
  let (form, content) ← json.readVariant ["materialize", "inject"]
  match form with
  | "materialize" =>
    readVariantRecord .direct "EntryStatement::Materialize" ["class", "variable", "value"] content
      fun slots =>
        PlanStatement.construct
          <$> required "class" slots (·.1.readText)
          <*> required "variable" slots (·.1.readText)
          <*> required "value" slots (Expr.ofJson ·.1)
  | _ =>
    readVariantRecord .direct "EntryStatement::Inject" ["request", "value"] content fun slots =>
      PlanStatement.answer
        <$> required "request" slots (Request.ofJson ·.1)
        <*> required "value" slots (Expr.ofJson ·.1)

/-- The JSON form of a plan. -/
def Plan.toJson (p : Plan) : Json :=
  .obj [("entry", .str p.entry), ("modules", .ofList ModuleHandle.toJson p.modules),
    ("declarations", .ofTexts p.declarations),
    ("enhanced", .ofList InterceptingClass.toJson p.subclasses),
    ("statements", .ofList PlanStatement.toJson p.statements)]

/-- The plan that a value stands for. -/
def Plan.ofJson (json : Json) : Read Plan :=
  json.readRecord "EntryPlan" ["entry", "modules", "declarations", "enhanced", "statements"]
    fun slots =>
      Plan.mk
        <$> required "entry" slots (·.1.readText)
        <*> required "modules" slots (·.1.readList (ModuleHandle.ofJson ·.1))
        <*> required "declarations" slots (·.1.readTexts)
        <*> required "enhanced" slots (·.1.readList (InterceptingClass.ofJson ·.1))
        <*> required "statements" slots (·.1.readList (PlanStatement.ofJson ·.1))

/-- The JSON form of the plans of all entry points. -/
def Plans.toJson (output : Plans) : Json :=
  .obj [("plans", .ofList Plan.toJson output.plans)]

/-- The plans of all entry points that a value stands for. -/
def Plans.ofJson (json : Json) : Read Plans :=
  json.readRecord "PassOutput" ["plans"] fun slots =>
    Plans.mk <$> required "plans" slots (·.1.readList (Plan.ofJson ·.1))

end Wiring
