import Wiring.Json.Basic
import Wiring.Decimal.Shortest
import Wiring.Text.Quoted

/-!
# Reading values as data

What a JSON value stands for, or the first reason why it stands for nothing. Records are written
as objects, whose fields are looked at in the order of their names, or as arrays, whose items are
the fields in the order of the record. A field that is missing is reported after all fields that
are there but bad. Alternatives are written as the name of the one chosen, alone or with content.

The parts of a value that a reader is given are smaller than the value itself, so that a reader
of nested data may call itself.
-/

namespace Wiring.Json

/-! ### What is wrong with a value -/

/-- What a value turned out to be. -/
inductive Found where
  | null
  | bool (value : Bool)
  | int (value : Int)
  | real (value : Decimal)
  | str (value : String)
  | sequence
  | map
  | unitVariant

/-- The description of a value in a message. -/
def Found.text : Found → String
  | null => "null"
  | bool value => "boolean `" ++ (if value then "true" else "false") ++ "`"
  | int value => "integer `" ++ toString value ++ "`"
  | real value => "floating point `" ++ value.shortest ++ "`"
  | str value => "string " ++ Text.quoted value
  | sequence => "sequence"
  | map => "map"
  | unitVariant => "unit variant"

/-- What the value is. -/
def found : Json → Found
  | .null => .null
  | .bool value => .bool value
  | .int value => .int value
  | .real value => .real value
  | .str value => .str value
  | .arr _ => .sequence
  | .obj _ => .map

/-- Why a value does not stand for data. -/
inductive ReadError where
  | wrongType (found : Found) (expected : String)
  | wrongValue (found : Found) (expected : String)
  | wrongLength (length : Nat) (expected : String)
  | missingField (name : String)
  | unknownVariant (name : String) (known : List String)

/-- A list of choices in a message. -/
def choices : List String → String
  | [] => "there are no variants"
  | [a] => "expected `" ++ a ++ "`"
  | [a, b] => "expected `" ++ a ++ "` or `" ++ b ++ "`"
  | names => "expected one of " ++ ", ".intercalate (names.map fun name => "`" ++ name ++ "`")

/-- The message of an error. -/
def ReadError.message : ReadError → String
  | wrongType found expected => "invalid type: " ++ found.text ++ ", expected " ++ expected
  | wrongValue found expected => "invalid value: " ++ found.text ++ ", expected " ++ expected
  | wrongLength length expected =>
    "invalid length " ++ toString length ++ ", expected " ++ expected
  | missingField name => "missing field `" ++ name ++ "`"
  | unknownVariant name known => "unknown variant `" ++ name ++ "`, " ++ choices known

/-- Data read from a value, or the reason why there is none. -/
abbrev Read (α : Type) := Except ReadError α

/-! ### Single values -/

/-- A text. -/
def readText : Json → Read String
  | .str value => .ok value
  | json => .error (.wrongType json.found "a string")

/-- A truth value. -/
def readBool : Json → Read Bool
  | .bool value => .ok value
  | json => .error (.wrongType json.found "a boolean")

/-- A number of 32 bits. -/
def readWord : Json → Read UInt32
  | .int n =>
    if 0 ≤ n ∧ n < UInt32.size then .ok (UInt32.ofNat n.toNat)
    else .error (.wrongValue (.int n) "u32")
  | json => .error (.wrongType json.found "u32")

/-! ### Parts -/

/-- A value inside another one. -/
abbrev Part (json : Json) := { part : Json // sizeOf part < sizeOf json }

/-- The items of an array. -/
def itemParts : (json : Json) → List (Part json)
  | .arr items => items.attach.map fun ⟨item, h⟩ =>
    ⟨item, by have := List.sizeOf_lt_of_mem h; simp; omega⟩
  | _ => []

theorem sizeOf_lt_of_lookup {fields : List (String × Json)} {key : String} {value : Json} :
    (fields.lookup key = some value) →
  sizeOf value < sizeOf (Json.obj fields)
  := by
  intro h
  have found : (key, value) ∈ fields := by
    induction fields with
    | nil => simp at h
    | cons field fields ih =>
      obtain ⟨other, held⟩ := field
      rw [List.lookup_cons] at h
      split at h
      · rename_i same
        simp_all
      · exact List.mem_cons_of_mem _ (ih h)
  have small := List.sizeOf_lt_of_mem found
  simp at small ⊢
  omega

/-- The value under a key of an object. -/
def fieldPart? : (json : Json) → (key : String) → Option (Part json)
  | .obj fields, key =>
    match h : fields.lookup key with
    | some value => some ⟨value, sizeOf_lt_of_lookup h⟩
    | none => none
  | _, _ => none

/-- The value at the place of a field in a list of items. -/
def listedPart? {α : Type} (names : List String) (items : List α) (name : String) : Option α :=
  (names.zip items).lookup name

/-- A list, its items read one after the other. -/
def readList {α : Type} (json : Json) (read : Part json → Read α) : Read (List α) :=
  match json.found with
  | .sequence => json.itemParts.mapM read
  | found => .error (.wrongType found "a sequence")

/-- A list of texts. -/
def readTexts (json : Json) : Read (List String) :=
  json.readList fun item => item.1.readText

/-- A value that may be `null`. -/
def readOption {α : Type} (read : Json → Read α) : Json → Read (Option α)
  | .null => .ok none
  | json => some <$> read json

/-- Texts under names, in the order of these. -/
def readTextMap (json : Json) : Read (List (String × String)) :=
  match json with
  | .obj fields =>
    (fields.mergeSort fun a b => a.1 ≤ b.1).mapM fun (name, value) => do
      return (name, ← value.readText)
  | other => .error (.wrongType other.found "a map")

/-- An array of two values. -/
def readPair {α β : Type} (first : Json → Read α) (second : Json → Read β) (json : Json) :
    Read (α × β) :=
  let expected := "a tuple of size 2"
  match json with
  | .arr (a :: b :: rest) => do
    let a ← first a
    let b ← second b
    if rest = [] then pure (a, b)
    else .error (.wrongLength (rest.length + 2) "fewer elements in array")
  | .arr [a] => do
    let _ ← first a
    .error (.wrongLength 1 expected)
  | .arr [] => .error (.wrongLength 0 expected)
  | other => .error (.wrongType other.found expected)

/-! ### Fields -/

/-- What has been read of a record: its value, or the fields that are bad and the ones that are
missing. -/
inductive Fields (α : Type) where
  | read (value : α)
  | faulty (bad : List (String × ReadError)) (missing : List String)

namespace Fields

/-- The fields of two parts of a record together. -/
def combine {α β : Type} : Fields (α → β) → Fields α → Fields β
  | .read f, .read value => .read (f value)
  | .read _, .faulty bad missing => .faulty bad missing
  | .faulty bad missing, .read _ => .faulty bad missing
  | .faulty bad missing, .faulty bad' missing' => .faulty (bad ++ bad') (missing ++ missing')

instance : Applicative Fields where
  pure := .read
  seq f value := f.combine (value ())

end Fields

/-- A field, found or not, with what its absence means. -/
def fieldOf {α β : Type} (name : String) (absent : Fields α) (read : β → Read α) :
    Option β → Fields α
  | none => absent
  | some part =>
    match read part with
    | .ok value => .read value
    | .error error => .faulty [(name, error)] []

/-- A field that has to be there. -/
def required {α β : Type} (name : String) (slots : String → Option β) (read : β → Read α) :
    Fields α :=
  fieldOf name (.faulty [] [name]) read (slots name)

/-- A field with a value of its own when it is not there. -/
def optional {α β : Type} (name : String) (slots : String → Option β) (read : β → Read α)
    (absent : α) : Fields α :=
  fieldOf name (.read absent) read (slots name)

/-- The first field in the order of names. -/
def firstByName : List (String × ReadError) → Option (String × ReadError)
  | [] => none
  | field :: rest =>
    match firstByName rest with
    | some first => some (if first.1 < field.1 then first else field)
    | none => some field

/-- A record written as an object. -/
def Fields.named {α : Type} : Fields α → Read α
  | .read value => .ok value
  | .faulty bad missing =>
    match firstByName bad with
    | some (_, error) => .error error
    | none => .error (.missingField (missing.headD ""))

/-- The number of elements that a list of fields should have, in a message. -/
def elements (expected : String) (count : Nat) : String :=
  expected ++ " with " ++ toString count ++ if count = 1 then " element" else " elements"

/-- A record written as an array of `length` items. -/
def Fields.listed {α : Type} (expected : String) (length : Nat) : Fields α → Read α
  | .read value => .ok value
  | .faulty ((_, error) :: _) _ => .error error
  | .faulty [] _ => .error (.wrongLength length expected)

/-- The fields of a record at the places of a list, which may not go on behind them. -/
def readListed {α β : Type} (expected : String) (names : List String) (excess : String)
    (items : List β) (fields : (String → Option β) → Fields α) : Read α := do
  let expected := elements expected names.length
  let value ← (fields (listedPart? names items)).listed expected items.length
  if names.length < items.length then
    .error (.wrongLength items.length excess)
  else
    pure value

/-- A record, written as an object or as an array. -/
def readRecord {α : Type} (typeName : String) (names : List String) (json : Json)
    (fields : (String → Option (Part json)) → Fields α) : Read α :=
  let expected := "struct " ++ typeName
  match json.found with
  | .map => (fields json.fieldPart?).named
  | .sequence =>
    readListed expected names "fewer elements in array" json.itemParts fields
  | found => .error (.wrongType found expected)

/-! ### Alternatives -/

/-- How lists and empty objects are read inside an alternative. Where the alternative was kept
until its tag had been found, fields may be listed and an empty object is nothing. -/
inductive Manner where
  | direct
  | kept
deriving DecidableEq

/-- The end of a message on a list that was read up to `count` items and goes on. -/
def inSequence (count : Nat) : String :=
  toString count ++ if count = 1 then " element in sequence" else " elements in sequence"

/-- The name of an alternative and its content, if any. -/
def readVariant (known : List String) : (json : Json) → Read (String × Option (Part json))
  | .str name => if name ∈ known then .ok (name, none) else .error (.unknownVariant name known)
  | .obj [(name, content)] =>
    if name ∈ known then .ok (name, some ⟨content, by simp; omega⟩)
    else .error (.unknownVariant name known)
  | .obj _ => .error (.wrongValue .map "map with a single key")
  | json => .error (.wrongType json.found "string or map")

/-- An alternative without content. -/
def readUnit {json : Json} (manner : Manner) (content : Option (Part json)) : Read Unit :=
  match manner, content.map Subtype.val with
  | _, none => .ok ()
  | _, some Json.null => .ok ()
  | .kept, some (Json.obj []) => .ok ()
  | _, some other => .error (.wrongType other.found "unit")

/-- The content of an alternative that has one. -/
def contentOf {json : Json} (expected : String) : Option (Part json) → Read (Part json)
  | some content => .ok content
  | none => .error (.wrongType .unitVariant expected)

/-- The fields of an alternative. -/
def readVariantRecord {α : Type} {json : Json} (manner : Manner) (typeName : String)
    (names : List String) (content : Option (Part json))
    (fields : (String → Option (Part json)) → Fields α) : Read α := do
  let content ← contentOf "struct variant" content
  let within (part : Part content.1) : Part json := ⟨part.1, Nat.lt_trans part.2 content.2⟩
  match manner, content.1.found with
  | _, .map => (fields fun name => (content.1.fieldPart? name).map within).named
  | .kept, .sequence =>
    readListed ("struct variant " ++ typeName) names (inSequence names.length)
      (content.1.itemParts.map within) fields
  | _, found => .error (.wrongType found "struct variant")

/-- The items of an alternative that has two of them. -/
def readVariantPair {json : Json} (manner : Manner) (typeName : String)
    (content : Option (Part json)) : Read (List (Part json)) := do
  let content ← contentOf "tuple variant" content
  let within (part : Part content.1) : Part json := ⟨part.1, Nat.lt_trans part.2 content.2⟩
  match manner, content.1.found, content.1.itemParts with
  | .direct, .sequence, [] => .error (.wrongType .null ("tuple variant " ++ typeName))
  | _, .sequence, items => .ok (items.map within)
  | _, found, _ => .error (.wrongType found "tuple variant")

/-- An alternative whose values have no content. -/
def readEnum {α : Type} (known : List (String × α)) (json : Json) : Read α := do
  let (name, content) ← json.readVariant (known.map (·.1))
  readUnit .direct content
  match known.lookup name with
  | some value => pure value
  | none => .error (.unknownVariant name (known.map (·.1)))

/-- The name of an alternative that stands by itself and can only be a text. -/
def readName (known : List String) : Json → Read String
  | .str name => if name ∈ known then .ok name else .error (.unknownVariant name known)
  | other => .error (.wrongType other.found "variant identifier")

/-- An alternative written with its name under one key and its content under another, or as an
array of the two. -/
def readTagged (typeName tag content : String) (known : List String) (json : Json) :
    Read (String × Option Json) :=
  let expected := "adjacently tagged enum " ++ typeName
  match json with
  | .obj fields =>
    match fields.lookup tag with
    | none => .error (.missingField tag)
    | some named => do
      let name ← named.readEnum (known.map fun name => (name, name))
      pure (name, fields.lookup content)
  | .arr [] => .error (.wrongLength 0 expected)
  | .arr (named :: rest) => do
    let name ← named.readName known
    match rest with
    | [] => .error (.wrongLength 1 expected)
    | held :: _ => pure (name, some held)
  | json => .error (.wrongType json.found expected)

/-- An array that stands for an alternative has two items; more are refused in the end. -/
def atMostTwo {α : Type} (json : Json) (value : α) : Read α :=
  match json with
  | .arr items =>
    if 2 < items.length then .error (.wrongLength items.length "fewer elements in array")
    else .ok value
  | _ => .ok value

end Wiring.Json
