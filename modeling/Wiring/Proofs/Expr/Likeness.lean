import Wiring.Plan.Basic
import Mathlib.Tactic.Common

/-!
# Likeness

Expressions are alike if they are the same node by node, except for the names of the classes that
they construct. Of two such names no more is asked than that they stand for the same.
-/

namespace Wiring

section

variable (same : String → String → Prop)

mutual

/-- The expressions are the same up to the names of constructed classes. -/
inductive Expr.Alike : Expr → Expr → Prop where
  | null : Expr.Alike .null .null
  | this : Expr.Alike .this .this
  | super : Expr.Alike .super .super
  | arguments : Expr.Alike .arguments .arguments
  | str (value) : Expr.Alike (.str value) (.str value)
  | raw (source) : Expr.Alike (.raw source) (.raw source)
  | name (name) : Expr.Alike (.name name) (.name name)
  | member {object₁ object₂} (property) (object : Expr.Alike object₁ object₂) :
    Expr.Alike (.member object₁ property) (.member object₂ property)
  | new {name₁ name₂ args₁ args₂} (names : same name₁ name₂)
    (args : List.Forall₂ Expr.Alike args₁ args₂) :
    Expr.Alike (.new name₁ args₁) (.new name₂ args₂)
  | call {callee₁ callee₂ args₁ args₂} (callee : Expr.Alike callee₁ callee₂)
    (args : List.Forall₂ Expr.Alike args₁ args₂) :
    Expr.Alike (.call callee₁ args₁) (.call callee₂ args₂)
  | assign {value₁ value₂} (target) (value : Expr.Alike value₁ value₂) :
    Expr.Alike (.assign target value₁) (.assign target value₂)
  | sequence {items₁ items₂} (items : List.Forall₂ Expr.Alike items₁ items₂) :
    Expr.Alike (.sequence items₁) (.sequence items₂)
  | conditional {test₁ test₂ consequent₁ consequent₂ alternate₁ alternate₂}
    (test : Expr.Alike test₁ test₂) (consequent : Expr.Alike consequent₁ consequent₂)
    (alternate : Expr.Alike alternate₁ alternate₂) :
    Expr.Alike (.conditional test₁ consequent₁ alternate₁)
      (.conditional test₂ consequent₂ alternate₂)
  | and {left₁ left₂ right₁ right₂} (left : Expr.Alike left₁ left₂)
    (right : Expr.Alike right₁ right₂) :
    Expr.Alike (.and left₁ right₁) (.and left₂ right₂)
  | function {body₁ body₂} (params) (body : List.Forall₂ Stmt.Alike body₁ body₂) :
    Expr.Alike (.function params body₁) (.function params body₂)

/-- The statements are the same up to the names of constructed classes. -/
inductive Stmt.Alike : Stmt → Stmt → Prop where
  | declare {value₁ value₂} (name) (value : Expr.Alike value₁ value₂) :
    Stmt.Alike (.declare name value₁) (.declare name value₂)
  | evaluate {value₁ value₂} (value : Expr.Alike value₁ value₂) :
    Stmt.Alike (.evaluate value₁) (.evaluate value₂)
  | result {value₁ value₂} (value : Expr.Alike value₁ value₂) :
    Stmt.Alike (.result value₁) (.result value₂)

end

/-- The statements of a plan say the same, up to the names of constructed classes. -/
inductive PlanStatement.Alike : PlanStatement → PlanStatement → Prop where
  | construct {value₁ value₂} (className target) (value : Expr.Alike same value₁ value₂) :
    PlanStatement.Alike (.construct className target value₁) (.construct className target value₂)
  | answer {value₁ value₂} (request) (value : Expr.Alike same value₁ value₂) :
    PlanStatement.Alike (.answer request value₁) (.answer request value₂)

end

mutual

/-- Where names may not differ, nothing else may. -/
theorem Expr.Alike.eq : (e₁ e₂ : Expr) → Expr.Alike Eq e₁ e₂ →
  e₁ = e₂
  | .null, _, .null => rfl
  | .this, _, .this => rfl
  | .super, _, .super => rfl
  | .arguments, _, .arguments => rfl
  | .str _, _, .str _ => rfl
  | .raw _, _, .raw _ => rfl
  | .name _, _, .name _ => rfl
  | .member _ _, _, .member _ object => by rw [Expr.Alike.eq _ _ object]
  | .new _ _, _, .new names args => by rw [names, Expr.Alike.eq_all _ _ args]
  | .call _ _, _, .call callee args => by
      rw [Expr.Alike.eq _ _ callee, Expr.Alike.eq_all _ _ args]
  | .assign _ _, _, .assign _ value => by rw [Expr.Alike.eq _ _ value]
  | .sequence _, _, .sequence items => by rw [Expr.Alike.eq_all _ _ items]
  | .conditional _ _ _, _, .conditional test consequent alternate => by
      rw [Expr.Alike.eq _ _ test, Expr.Alike.eq _ _ consequent, Expr.Alike.eq _ _ alternate]
  | .and _ _, _, .and left right => by
      rw [Expr.Alike.eq _ _ left, Expr.Alike.eq _ _ right]
  | .function _ _, _, .function _ body => by rw [Stmt.Alike.eq_all _ _ body]

theorem Expr.Alike.eq_all : (es₁ es₂ : List Expr) → List.Forall₂ (Expr.Alike Eq) es₁ es₂ →
  es₁ = es₂
  | [], _, .nil => rfl
  | _ :: _, _, .cons first rest => by
      rw [Expr.Alike.eq _ _ first, Expr.Alike.eq_all _ _ rest]

theorem Stmt.Alike.eq : (s₁ s₂ : Stmt) → Stmt.Alike Eq s₁ s₂ →
  s₁ = s₂
  | .declare _ _, _, .declare _ value => by rw [Expr.Alike.eq _ _ value]
  | .evaluate _, _, .evaluate value => by rw [Expr.Alike.eq _ _ value]
  | .result _, _, .result value => by rw [Expr.Alike.eq _ _ value]

theorem Stmt.Alike.eq_all : (xs ys : List Stmt) → List.Forall₂ (Stmt.Alike Eq) xs ys →
  xs = ys
  | [], _, .nil => rfl
  | _ :: _, _, .cons first rest => by
      rw [Stmt.Alike.eq _ _ first, Stmt.Alike.eq_all _ _ rest]

end

variable {same : String → String → Prop}

mutual

/-- An expression is like itself if every name is. -/
theorem Expr.Alike.refl (names : ∀ n, same n n) : (e : Expr) →
  Expr.Alike same e e
  | .null => .null
  | .this => .this
  | .super => .super
  | .arguments => .arguments
  | .str value => .str value
  | .raw source => .raw source
  | .name name => .name name
  | .member object property => .member property (Expr.Alike.refl names object)
  | .new className args => .new (names className) (Expr.Alike.refl_all names args)
  | .call callee args => .call (Expr.Alike.refl names callee) (Expr.Alike.refl_all names args)
  | .assign target value => .assign target (Expr.Alike.refl names value)
  | .sequence items => .sequence (Expr.Alike.refl_all names items)
  | .conditional test consequent alternate =>
    .conditional (Expr.Alike.refl names test) (Expr.Alike.refl names consequent)
      (Expr.Alike.refl names alternate)
  | .and left right => .and (Expr.Alike.refl names left) (Expr.Alike.refl names right)
  | .function params body => .function params (Stmt.Alike.refl_all names body)

theorem Expr.Alike.refl_all (names : ∀ n, same n n) : (es : List Expr) →
  List.Forall₂ (Expr.Alike same) es es
  | [] => .nil
  | e :: es => .cons (Expr.Alike.refl names e) (Expr.Alike.refl_all names es)

theorem Stmt.Alike.refl (names : ∀ n, same n n) : (s : Stmt) →
  Stmt.Alike same s s
  | .declare name value => .declare name (Expr.Alike.refl names value)
  | .evaluate value => .evaluate (Expr.Alike.refl names value)
  | .result value => .result (Expr.Alike.refl names value)

theorem Stmt.Alike.refl_all (names : ∀ n, same n n) : (body : List Stmt) →
  List.Forall₂ (Stmt.Alike same) body body
  | [] => .nil
  | s :: body => .cons (Stmt.Alike.refl names s) (Stmt.Alike.refl_all names body)

end

end Wiring
