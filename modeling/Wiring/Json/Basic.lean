import Wiring.Decimal.Basic

/-!
# JSON values

The values that declarations, options and plans are exchanged in. A number written without a
fraction and an exponent is an integer if 64 bits hold it; all others are decimal numbers. The
keys of an object are distinct, and the order of its fields says nothing.
-/

namespace Wiring

inductive Json where
  | null
  | bool (value : Bool)
  | int (value : Int)
  | real (value : Decimal)
  | str (value : String)
  | arr (items : List Json)
  | obj (fields : List (String × Json))
deriving Inhabited

namespace Json

/-- The value under a key of an object. -/
def field? (key : String) : Json → Option Json
  | .obj fields => fields.lookup key
  | _ => none

/-- The value under a key of an object, `null` if there is none. -/
def fieldOrNull (key : String) (json : Json) : Json :=
  (json.field? key).getD .null

/-- Fields with a further one: a key that is there already takes the new value. -/
def insertField (key : String) (value : Json) : List (String × Json) → List (String × Json)
  | [] => [(key, value)]
  | (other, held) :: rest =>
    if other = key then (key, value) :: rest else (other, held) :: insertField key value rest

/-- The array of the texts. -/
def ofTexts (texts : List String) : Json :=
  .arr (texts.map .str)

/-- The text, or `null`. -/
def ofText? : Option String → Json
  | some text => .str text
  | none => .null

/-- The number. -/
def ofNat (n : Nat) : Json :=
  .int n

/-- What a value that may be missing stands for, or `null`. -/
def ofOption {α : Type} (encode : α → Json) : Option α → Json
  | some value => encode value
  | none => .null

/-- The array of what the values stand for. -/
def ofList {α : Type} (encode : α → Json) (values : List α) : Json :=
  .arr (values.map encode)

end Json

end Wiring
