/-!
# Plan expressions

The expressions and statements that a plan is made of. An expression constructs part of an object
graph; statements occur only in the bodies of functions. The module also lists the expressions
inside an expression, in the order in which they are visited.
-/

namespace Wiring

mutual

/-- An expression of a plan. -/
inductive Expr where
  /-- Stands wherever a dependency could not be resolved. -/
  | null
  /-- The receiver of the enclosing method. -/
  | this
  /-- The base class of the enclosing constructor. -/
  | super
  /-- The arguments of the enclosing function. -/
  | arguments
  | str (value : String)
  /-- Source text that is handed on as it is. -/
  | raw (source : String)
  /-- A name, possibly qualified. -/
  | name (name : String)
  | member (object : Expr) (property : String)
  | new (className : String) (args : List Expr)
  | call (callee : Expr) (args : List Expr)
  | assign (target : String) (value : Expr)
  /-- Evaluated from left to right; the last one is the value. -/
  | sequence (items : List Expr)
  | conditional (test consequent alternate : Expr)
  /-- The right side is evaluated only if the left one is truthy. -/
  | and (left right : Expr)
  | function (params : List String) (body : List Stmt)

/-- A statement in the body of a function. -/
inductive Stmt where
  | declare (name : String) (value : Expr)
  | evaluate (value : Expr)
  | result (value : Expr)

end

instance : Inhabited Expr := ⟨.null⟩

namespace Expr

/-- A function without parameters that returns the value of an expression. -/
def delayed (value : Expr) : Expr :=
  .function [] [.result value]

/-- The placeholder of what could not be resolved. -/
def isNull : Expr → Bool
  | .null => true
  | _ => false

end Expr

/-! ### Visiting -/

mutual

/-- An expression and all expressions inside it, each before its parts and these from left to
right. -/
def Expr.visited : Expr → List Expr
  | .member object property => .member object property :: object.visited
  | .new className args => .new className args :: Expr.visitedAll args
  | .call callee args => .call callee args :: (callee.visited ++ Expr.visitedAll args)
  | .assign target value => .assign target value :: value.visited
  | .sequence items => .sequence items :: Expr.visitedAll items
  | .conditional test consequent alternate =>
    .conditional test consequent alternate ::
      (test.visited ++ consequent.visited ++ alternate.visited)
  | .and left right => .and left right :: (left.visited ++ right.visited)
  | .function params body => .function params body :: Stmt.visitedAll body
  | e => [e]

/-- The expressions of a list, one after the other. -/
def Expr.visitedAll : List Expr → List Expr
  | [] => []
  | e :: rest => e.visited ++ Expr.visitedAll rest

/-- The expressions of a statement. -/
def Stmt.visited : Stmt → List Expr
  | .declare _ value => value.visited
  | .evaluate value => value.visited
  | .result value => value.visited

/-- The expressions of a function body. -/
def Stmt.visitedAll : List Stmt → List Expr
  | [] => []
  | s :: rest => s.visited ++ Stmt.visitedAll rest

end

/-- The number of expressions, the whole one included, that a test selects. -/
def Expr.count (test : Expr → Bool) (e : Expr) : Nat :=
  e.visited.countP test

end Wiring
