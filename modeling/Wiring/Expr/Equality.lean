import Wiring.Expr.Basic

/-!
# Equality of plan expressions

Two expressions are equal when they have the same shape and the same texts in the same places;
the same for statements. Equality is decided by walking both at once.
-/

namespace Wiring

mutual

/-- The two expressions have the same shape and texts. -/
def Expr.same : Expr → Expr → Bool
  | .null, .null => true
  | .this, .this => true
  | .super, .super => true
  | .arguments, .arguments => true
  | .str s, .str t => s == t
  | .raw s, .raw t => s == t
  | .name s, .name t => s == t
  | .member o p, .member o' p' => o.same o' && p == p'
  | .new c args, .new c' args' => c == c' && Expr.sameAll args args'
  | .call f args, .call f' args' => f.same f' && Expr.sameAll args args'
  | .assign t v, .assign t' v' => t == t' && v.same v'
  | .sequence items, .sequence items' => Expr.sameAll items items'
  | .conditional t c a, .conditional t' c' a' => t.same t' && c.same c' && a.same a'
  | .and l r, .and l' r' => l.same l' && r.same r'
  | .function ps body, .function ps' body' => ps == ps' && Stmt.sameAll body body'
  | _, _ => false

/-- The two lists hold the same expressions. -/
def Expr.sameAll : List Expr → List Expr → Bool
  | [], [] => true
  | e :: rest, e' :: rest' => e.same e' && Expr.sameAll rest rest'
  | _, _ => false

/-- The two statements have the same shape and texts. -/
def Stmt.same : Stmt → Stmt → Bool
  | .declare n v, .declare n' v' => n == n' && v.same v'
  | .evaluate v, .evaluate v' => v.same v'
  | .result v, .result v' => v.same v'
  | _, _ => false

/-- The two bodies hold the same statements. -/
def Stmt.sameAll : List Stmt → List Stmt → Bool
  | [], [] => true
  | s :: rest, s' :: rest' => s.same s' && Stmt.sameAll rest rest'
  | _, _ => false

end

mutual

theorem Expr.same_iff : (a b : Expr) →
  (a.same b = true ↔ a = b)
  | .null, b => by cases b <;> simp [Expr.same]
  | .this, b => by cases b <;> simp [Expr.same]
  | .super, b => by cases b <;> simp [Expr.same]
  | .arguments, b => by cases b <;> simp [Expr.same]
  | .str _, b => by cases b <;> simp [Expr.same]
  | .raw _, b => by cases b <;> simp [Expr.same]
  | .name _, b => by cases b <;> simp [Expr.same]
  | .member o _, b => by cases b <;> simp [Expr.same, Expr.same_iff o]
  | .new _ args, b => by cases b <;> simp [Expr.same, Expr.sameAll_iff args]
  | .call f args, b => by cases b <;> simp [Expr.same, Expr.same_iff f, Expr.sameAll_iff args]
  | .assign _ v, b => by cases b <;> simp [Expr.same, Expr.same_iff v]
  | .sequence items, b => by cases b <;> simp [Expr.same, Expr.sameAll_iff items]
  | .conditional t c a, b => by
    cases b <;> simp [Expr.same, Expr.same_iff t, Expr.same_iff c, Expr.same_iff a, and_assoc]
  | .and l r, b => by cases b <;> simp [Expr.same, Expr.same_iff l, Expr.same_iff r]
  | .function _ body, b => by cases b <;> simp [Expr.same, Stmt.sameAll_iff body]

theorem Expr.sameAll_iff : (as bs : List Expr) →
  (Expr.sameAll as bs = true ↔ as = bs)
  | [], bs => by cases bs <;> simp [Expr.sameAll]
  | e :: rest, bs => by
    cases bs <;> simp [Expr.sameAll, Expr.same_iff e, Expr.sameAll_iff rest]

theorem Stmt.same_iff : (a b : Stmt) →
  (a.same b = true ↔ a = b)
  | .declare _ v, b => by cases b <;> simp [Stmt.same, Expr.same_iff v]
  | .evaluate v, b => by cases b <;> simp [Stmt.same, Expr.same_iff v]
  | .result v, b => by cases b <;> simp [Stmt.same, Expr.same_iff v]

theorem Stmt.sameAll_iff : (as bs : List Stmt) →
  (Stmt.sameAll as bs = true ↔ as = bs)
  | [], bs => by cases bs <;> simp [Stmt.sameAll]
  | s :: rest, bs => by
    cases bs <;> simp [Stmt.sameAll, Stmt.same_iff s, Stmt.sameAll_iff rest]

end

instance : DecidableEq Expr := fun a b => decidable_of_iff _ (Expr.same_iff a b)

instance : DecidableEq Stmt := fun a b => decidable_of_iff _ (Stmt.same_iff a b)

end Wiring
