import Wiring.Diagnostic.Basic
import Wiring.Json.Read

/-!
# Severities and stages as JSON

Both are written as their words.
-/

namespace Wiring

open Json

/-- The JSON form of a severity. -/
def Severity.toJson (severity : Severity) : Json :=
  .str severity.text

/-- The severity that a value stands for. -/
def Severity.ofJson (json : Json) : Read Severity :=
  json.readEnum [("error", .error), ("warning", .warning)]

/-- The JSON form of a stage. -/
def Stage.toJson (stage : Stage) : Json :=
  .str stage.text

/-- The stage that a value stands for. -/
def Stage.ofJson (json : Json) : Read Stage :=
  json.readEnum [("declaration", .declaration), ("ambiguity", .ambiguity),
    ("resolution", .resolution)]

end Wiring
