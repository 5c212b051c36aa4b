import Wiring.Expr.Basic
import Wiring.Json.Read

/-!
# Plan expressions as JSON

An expression or a statement is written as the name of its form, alone if the form has no parts,
or else as an object with the name as its only key and the parts under it.
-/

namespace Wiring

open Json

/-! ### Writing -/

mutual

/-- The JSON form of an expression. -/
def Expr.toJson : Expr → Json
  | .null => .str "null"
  | .this => .str "this"
  | .super => .str "super"
  | .arguments => .str "arguments"
  | .str value => .obj [("str", .str value)]
  | .raw source => .obj [("raw", .str source)]
  | .name name => .obj [("name", .str name)]
  | .member object property =>
    .obj [("member", .obj [("object", object.toJson), ("property", .str property)])]
  | .new className args =>
    .obj [("new", .obj [("class", .str className), ("args", .arr (Expr.toJsons args))])]
  | .call callee args =>
    .obj [("call", .obj [("callee", callee.toJson), ("args", .arr (Expr.toJsons args))])]
  | .assign target value =>
    .obj [("assign", .obj [("target", .str target), ("value", value.toJson)])]
  | .sequence items => .obj [("sequence", .arr (Expr.toJsons items))]
  | .conditional test consequent alternate =>
    .obj [("conditional", .obj [("test", test.toJson), ("consequent", consequent.toJson),
      ("alternate", alternate.toJson)])]
  | .and left right => .obj [("and", .arr [left.toJson, right.toJson])]
  | .function params body =>
    .obj [("function", .obj [("params", .ofTexts params), ("body", .arr (Stmt.toJsons body))])]

/-- The JSON forms of the expressions of a list. -/
def Expr.toJsons : List Expr → List Json
  | [] => []
  | e :: rest => e.toJson :: Expr.toJsons rest

/-- The JSON form of a statement. -/
def Stmt.toJson : Stmt → Json
  | .declare name value => .obj [("let", .obj [("name", .str name), ("value", value.toJson)])]
  | .evaluate value => .obj [("expr", value.toJson)]
  | .result value => .obj [("return", value.toJson)]

/-- The JSON forms of the statements of a body. -/
def Stmt.toJsons : List Stmt → List Json
  | [] => []
  | s :: rest => s.toJson :: Stmt.toJsons rest

end

/-! ### Reading -/

/-- The names of the forms of expressions. -/
def Expr.forms : List String :=
  ["null", "this", "super", "arguments", "str", "raw", "name", "member", "new", "call", "assign",
    "sequence", "conditional", "and", "function"]

/-- The name of the form of an expression. -/
def Expr.form : Expr → String
  | .null => "null"
  | .this => "this"
  | .super => "super"
  | .arguments => "arguments"
  | .str _ => "str"
  | .raw _ => "raw"
  | .name _ => "name"
  | .member .. => "member"
  | .new .. => "new"
  | .call .. => "call"
  | .assign .. => "assign"
  | .sequence _ => "sequence"
  | .conditional .. => "conditional"
  | .and .. => "and"
  | .function .. => "function"

/-- The names of the forms of statements. -/
def Stmt.forms : List String :=
  ["let", "expr", "return"]

mutual

/-- The expression that a value stands for. -/
def Expr.readIn (manner : Manner) (json : Json) : Read Expr := do
  let (form, content) ← json.readVariant Expr.forms
  match form with
  | "null" => (fun _ => .null) <$> readUnit manner content
  | "this" => (fun _ => .this) <$> readUnit manner content
  | "super" => (fun _ => .super) <$> readUnit manner content
  | "arguments" => (fun _ => .arguments) <$> readUnit manner content
  | "str" => do return .str (← (← contentOf "newtype variant" content).1.readText)
  | "raw" => do return .raw (← (← contentOf "newtype variant" content).1.readText)
  | "name" => do return .name (← (← contentOf "newtype variant" content).1.readText)
  | "member" =>
    readVariantRecord manner "Expr::Member" ["object", "property"] content fun slots =>
      Expr.member
        <$> required "object" slots (fun part => Expr.readIn manner part.1)
        <*> required "property" slots (fun part => part.1.readText)
  | "new" =>
    readVariantRecord manner "Expr::New" ["class", "args"] content fun slots =>
      Expr.new
        <$> required "class" slots (fun part => part.1.readText)
        <*> required "args" slots (fun part =>
          part.1.readList fun item => Expr.readIn manner item.1)
  | "call" =>
    readVariantRecord manner "Expr::Call" ["callee", "args"] content fun slots =>
      Expr.call
        <$> required "callee" slots (fun part => Expr.readIn manner part.1)
        <*> required "args" slots (fun part =>
          part.1.readList fun item => Expr.readIn manner item.1)
  | "assign" =>
    readVariantRecord manner "Expr::Assign" ["target", "value"] content fun slots =>
      Expr.assign
        <$> required "target" slots (fun part => part.1.readText)
        <*> required "value" slots (fun part => Expr.readIn manner part.1)
  | "sequence" => do
    let part ← contentOf "newtype variant" content
    return .sequence (← part.1.readList fun item => Expr.readIn manner item.1)
  | "conditional" =>
    readVariantRecord manner "Expr::Conditional" ["test", "consequent", "alternate"] content
      fun slots =>
        Expr.conditional
          <$> required "test" slots (fun part => Expr.readIn manner part.1)
          <*> required "consequent" slots (fun part => Expr.readIn manner part.1)
          <*> required "alternate" slots (fun part => Expr.readIn manner part.1)
  | "and" => do
    let items ← readVariantPair manner "Expr::And" content
    readListed "tuple variant Expr::And" ["left", "right"]
      (if manner = .kept then inSequence 2 else "fewer elements in array") items fun slots =>
        Expr.and
          <$> required "left" slots (fun part => Expr.readIn manner part.1)
          <*> required "right" slots (fun part => Expr.readIn manner part.1)
  | "function" =>
    readVariantRecord manner "Expr::Function" ["params", "body"] content fun slots =>
      Expr.function
        <$> required "params" slots (fun part => part.1.readTexts)
        <*> required "body" slots (fun part =>
          part.1.readList fun item => Stmt.readIn manner item.1)
  | other => .error (.unknownVariant other Expr.forms)
termination_by sizeOf json
decreasing_by all_goals grind

/-- The statement that a value stands for. -/
def Stmt.readIn (manner : Manner) (json : Json) : Read Stmt := do
  let (form, content) ← json.readVariant Stmt.forms
  match form with
  | "let" =>
    readVariantRecord manner "Stmt::Let" ["name", "value"] content fun slots =>
      Stmt.declare
        <$> required "name" slots (fun part => part.1.readText)
        <*> required "value" slots (fun part => Expr.readIn manner part.1)
  | "expr" => do return .evaluate (← Expr.readIn manner (← contentOf "newtype variant" content).1)
  | "return" => do return .result (← Expr.readIn manner (← contentOf "newtype variant" content).1)
  | other => .error (.unknownVariant other Stmt.forms)
termination_by sizeOf json
decreasing_by all_goals grind

end

/-- The expression that a value stands for. -/
def Expr.ofJson (json : Json) : Read Expr :=
  Expr.readIn .direct json

/-- The statement that a value stands for. -/
def Stmt.ofJson (json : Json) : Read Stmt :=
  Stmt.readIn .direct json

end Wiring
