import Wiring.Expr.Basic
import Wiring.Text.Quoted

/-!
# The text of a plan

A compact script-like form of expressions and statements. An operand that would run into its
surroundings, being an assignment, a conditional, a conjunction or a function, stands in
parentheses.
-/

namespace Wiring

/-- The texts one after the other, with a separator between neighbours. -/
def joined (separator : String) : List String → String
  | [] => ""
  | [text] => text
  | text :: texts => text ++ separator ++ joined separator texts

/-- Needs parentheses as an operand. -/
def Expr.isOpen : Expr → Bool
  | .assign .. => true
  | .conditional .. => true
  | .and .. => true
  | .function .. => true
  | _ => false

/-- The text of an expression, in parentheses if it stands as an operand and is open. -/
def Expr.operand (e : Expr) (text : String) : String :=
  if e.isOpen then "(" ++ text ++ ")" else text

mutual

/-- The text of an expression. -/
def Expr.text : Expr → String
  | .null => "null"
  | .this => "this"
  | .super => "super"
  | .arguments => "arguments"
  | .str value => Text.quoted value
  | .raw source => source
  | .name name => name
  | .member object property => object.operand object.text ++ "." ++ property
  | .new className args => "new " ++ className ++ "(" ++ joined ", " (Expr.texts args) ++ ")"
  | .call callee args => callee.operand callee.text ++ "(" ++ joined ", " (Expr.texts args) ++ ")"
  | .assign target value => target ++ " = " ++ value.text
  | .sequence items => "(" ++ joined ", " (Expr.texts items) ++ ")"
  | .conditional test consequent alternate =>
    test.operand test.text ++ " ? " ++ consequent.operand consequent.text ++ " : " ++
      alternate.operand alternate.text
  | .and left right => left.operand left.text ++ " && " ++ right.operand right.text
  | .function params body =>
    "function(" ++ joined ", " params ++ ") \x7b " ++ joined " " (Stmt.texts body) ++ " \x7d"

/-- The texts of the expressions of a list. -/
def Expr.texts : List Expr → List String
  | [] => []
  | e :: rest => e.text :: Expr.texts rest

/-- The text of a statement. -/
def Stmt.text : Stmt → String
  | .declare name value => "var " ++ name ++ " = " ++ value.text ++ ";"
  | .evaluate value => value.text ++ ";"
  | .result value => "return " ++ value.text ++ ";"

/-- The texts of the statements of a body. -/
def Stmt.texts : List Stmt → List String
  | [] => []
  | s :: rest => s.text :: Stmt.texts rest

end

end Wiring
