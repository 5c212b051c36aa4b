import Wiring.Expr.Json
import Wiring.Proofs.Json.Record

/-!
# Plan expressions, written and read back

An expression is read back from its JSON form, on its own as well as inside an alternative that was
kept until its tag had been found; so is a statement. The induction is on the expression, together
with the statements and the lists inside it.
-/

namespace Wiring

open Json

/-! ### Writing -/

/-- An alternative is an object with one field. -/
theorem Json.Writable.variant {name : String} {content : Json} (writable : content.Writable) :
  (Json.obj [(name, content)]).Writable
  := .obj (by simp) (by simpa using writable)

mutual

theorem Expr.writable_toJson : (e : Expr) →
  e.toJson.Writable
  | .null | .this | .super | .arguments => .str _
  | .str _ | .raw _ | .name _ => .variant (.str _)
  | .member object property => by
    have := object.writable_toJson
    exact .variant (.obj (by simp) (by simp [Json.Writable.str, this]))
  | .new className args => by
    have := Expr.writable_toJsons args
    exact .variant (.obj (by simp) (by simp [Json.Writable.str, this]))
  | .call callee args => by
    have := callee.writable_toJson
    have := Expr.writable_toJsons args
    exact .variant (.obj (by simp) (by simp [*]))
  | .assign target value => by
    have := value.writable_toJson
    exact .variant (.obj (by simp) (by simp [Json.Writable.str, this]))
  | .sequence items => .variant (Expr.writable_toJsons items)
  | .conditional test consequent alternate => by
    have := test.writable_toJson
    have := consequent.writable_toJson
    have := alternate.writable_toJson
    exact .variant (.obj (by simp) (by simp [*]))
  | .and left right => by
    have := left.writable_toJson
    have := right.writable_toJson
    exact .variant (.arr (by simp [*]))
  | .function params body => by
    have := Stmt.writable_toJsons body
    exact .variant (.obj (by simp) (by simp [(Faithful.texts).writable, this]))

theorem Expr.writable_toJsons : (items : List Expr) →
  (Json.arr (Expr.toJsons items)).Writable
  | [] => .arr (by simp [Expr.toJsons])
  | e :: items => by
    have first := e.writable_toJson
    cases Expr.writable_toJsons items with
    | arr others => exact .arr (by simpa [Expr.toJsons, first] using others)

theorem Stmt.writable_toJson : (s : Stmt) →
  s.toJson.Writable
  | .declare name value => by
    have := value.writable_toJson
    exact .variant (.obj (by simp) (by simp [Json.Writable.str, this]))
  | .evaluate value => .variant value.writable_toJson
  | .result value => .variant value.writable_toJson

theorem Stmt.writable_toJsons : (body : List Stmt) →
  (Json.arr (Stmt.toJsons body)).Writable
  | [] => .arr (by simp [Stmt.toJsons])
  | s :: body => by
    have first := s.writable_toJson
    cases Stmt.writable_toJsons body with
    | arr others => exact .arr (by simpa [Stmt.toJsons, first] using others)

end

/-! ### Reading -/

section Reading

variable (manner : Manner)

mutual

theorem Expr.readIn_toJson : (e : Expr) →
  Expr.readIn manner e.toJson = .ok e
  | .null | .this | .super | .arguments => by
    rw [Expr.readIn, Expr.toJson, readVariant_str (by decide)]
    rfl
  | .str value => by
    rw [Expr.readIn, Expr.toJson, readVariant_obj (by decide : "str" ∈ Expr.forms)]
    rfl
  | .raw source => by
    rw [Expr.readIn, Expr.toJson, readVariant_obj (by decide : "raw" ∈ Expr.forms)]
    rfl
  | .name path => by
    rw [Expr.readIn, Expr.toJson, readVariant_obj (by decide : "name" ∈ Expr.forms)]
    rfl
  | .member object property => by
    rw [Expr.readIn, Expr.toJson, readVariant_obj (by decide : "member" ∈ Expr.forms)]
    apply readVariantRecord_obj
    refine (Fields.Gives.map Expr.member ?_).seq ?_
    · exact required_content _ rfl object.readIn_toJson
    · exact required_content _ rfl rfl
  | .new className args => by
    rw [Expr.readIn, Expr.toJson, readVariant_obj (by decide : "new" ∈ Expr.forms)]
    apply readVariantRecord_obj
    refine (Fields.Gives.map Expr.new ?_).seq ?_
    · exact required_content _ rfl rfl
    · exact required_content_list _ rfl (Expr.mapM_readIn args)
  | .call callee args => by
    rw [Expr.readIn, Expr.toJson, readVariant_obj (by decide : "call" ∈ Expr.forms)]
    apply readVariantRecord_obj
    refine (Fields.Gives.map Expr.call ?_).seq ?_
    · exact required_content _ rfl callee.readIn_toJson
    · exact required_content_list _ rfl (Expr.mapM_readIn args)
  | .assign target value => by
    rw [Expr.readIn, Expr.toJson, readVariant_obj (by decide : "assign" ∈ Expr.forms)]
    apply readVariantRecord_obj
    refine (Fields.Gives.map Expr.assign ?_).seq ?_
    · exact required_content _ rfl rfl
    · exact required_content _ rfl value.readIn_toJson
  | .sequence items => by
    rw [Expr.readIn, Expr.toJson, readVariant_obj (by decide : "sequence" ∈ Expr.forms)]
    simp only [ok_bind, contentOf, readList_arr, Expr.mapM_readIn items]
    rfl
  | .conditional test consequent alternate => by
    rw [Expr.readIn, Expr.toJson, readVariant_obj (by decide : "conditional" ∈ Expr.forms)]
    apply readVariantRecord_obj
    refine ((Fields.Gives.map Expr.conditional ?_).seq ?_).seq ?_
    · exact required_content _ rfl test.readIn_toJson
    · exact required_content _ rfl consequent.readIn_toJson
    · exact required_content _ rfl alternate.readIn_toJson
  | .and left right => by
    rw [Expr.readIn, Expr.toJson, readVariant_obj (by decide : "and" ∈ Expr.forms)]
    refine readVariantPair_arr fun small₁ small₂ => ?_
    refine (Fields.Gives.map Expr.and ?_).seq ?_
    · exact .required rfl left.readIn_toJson
    · exact .required rfl right.readIn_toJson
  | .function params body => by
    rw [Expr.readIn, Expr.toJson, readVariant_obj (by decide : "function" ∈ Expr.forms)]
    apply readVariantRecord_obj
    refine (Fields.Gives.map Expr.function ?_).seq ?_
    · exact required_content _ rfl (Faithful.texts.reads_whole params)
    · exact required_content_list _ rfl (Stmt.mapM_readIn body)

theorem Expr.mapM_readIn : (items : List Expr) →
  (Expr.toJsons items).mapM (Expr.readIn manner) = .ok items
  | [] => rfl
  | e :: items => by
    rw [Expr.toJsons, List.mapM_cons, e.readIn_toJson, Expr.mapM_readIn items]
    rfl

theorem Stmt.readIn_toJson : (s : Stmt) →
  Stmt.readIn manner s.toJson = .ok s
  | .declare name value => by
    rw [Stmt.readIn, Stmt.toJson, readVariant_obj (by decide : "let" ∈ Stmt.forms)]
    apply readVariantRecord_obj
    refine (Fields.Gives.map Stmt.declare ?_).seq ?_
    · exact required_content _ rfl rfl
    · exact required_content _ rfl value.readIn_toJson
  | .evaluate value => by
    rw [Stmt.readIn, Stmt.toJson, readVariant_obj (by decide : "expr" ∈ Stmt.forms)]
    simp only [ok_bind, contentOf, value.readIn_toJson]
    rfl
  | .result value => by
    rw [Stmt.readIn, Stmt.toJson, readVariant_obj (by decide : "return" ∈ Stmt.forms)]
    simp only [ok_bind, contentOf, value.readIn_toJson]
    rfl

theorem Stmt.mapM_readIn : (body : List Stmt) →
  (Stmt.toJsons body).mapM (Stmt.readIn manner) = .ok body
  | [] => rfl
  | s :: body => by
    rw [Stmt.toJsons, List.mapM_cons, s.readIn_toJson, Stmt.mapM_readIn body]
    rfl

end

end Reading

/-- An expression is read back from its JSON form. -/
theorem Expr.faithful (manner : Manner) :
  Faithful Expr.toJson (Expr.readIn manner) .nowhere
  where
  writable := Expr.writable_toJson
  reads e _ := e.readIn_toJson manner

/-- A statement is read back from its JSON form. -/
theorem Stmt.faithful (manner : Manner) :
  Faithful Stmt.toJson (Stmt.readIn manner) .nowhere
  where
  writable := Stmt.writable_toJson
  reads s _ := s.readIn_toJson manner

end Wiring
