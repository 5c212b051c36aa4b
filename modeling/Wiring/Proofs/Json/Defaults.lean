import Mathlib.Data.List.Nodup
import Wiring.Json.Read
import Wiring.Proofs.Json.Equality
import Wiring.Proofs.Json.Text

/-!
# Leaving out defaults

Some fields of an object have a stated default. A value is pruned by choosing places inside it, and
leaving out the fields at these places that carry their default; the fields that stay may be pruned
inside.
-/

namespace Wiring.Json

/-- A step from a value to a value inside it. -/
inductive Step where
  | field (key : String)
  | item (index : Nat)

/-- The fields inside a value that have a default. -/
inductive Defaults where
  | nowhere
  /-- The ones inside the items of a list. -/
  | list (each : Defaults)
  /-- The ones of an object with their values, and the ones inside its fields. -/
  | record (stated : List (String × Json)) (inner : String → Defaults)

theorem lookup_of_mem {fields : List (String × Json)} (apart : (fields.map Prod.fst).Nodup)
    {key : String} {value : Json} (here : (key, value) ∈ fields) :
  fields.lookup key = some value
  := by
  obtain ⟨before, behind, rfl⟩ := List.append_of_mem here
  rw [List.lookup_eq_some_iff]
  refine ⟨before, behind, rfl, fun field h => ?_⟩
  rw [List.map_append, List.nodup_append] at apart
  simpa using (apart.2.2 field.1 (List.mem_map_of_mem h) key (by simp)).symm

namespace Defaults

/-- A field of an object with its value pruned, nothing if it is left out. -/
def pruneField (stated : List (String × Json)) (chosen : List Step → Bool)
    (inside : String → Json → Json) (field : String × Json) : Option (String × Json) :=
  if chosen [.field field.1] ∧ stated.lookup field.1 = some field.2 then none
  else some (field.1, inside field.1 field.2)

/-- The value without the fields at the chosen places, as far as these carry their default. -/
def prune : Defaults → (List Step → Bool) → Json → Json
  | .list each, chosen, .arr items =>
    .arr (items.mapIdx fun i item => each.prune (fun path => chosen (.item i :: path)) item)
  | .record stated inner, chosen, .obj fields =>
    .obj (fields.filterMap (pruneField stated chosen fun key value =>
      (inner key).prune (fun path => chosen (.field key :: path)) value))
  | _, _, json => json

@[simp]
theorem prune_nowhere (chosen : List Step → Bool) (json : Json) :
  nowhere.prune chosen json = json
  := rfl

/-- Where no place is chosen, nothing is left out. -/
theorem prune_unchosen (defaults : Defaults) (json : Json) :
  defaults.prune (fun _ => false) json = json
  := by
  induction defaults generalizing json with
  | nowhere => rfl
  | list each ih =>
    cases json with
    | arr items =>
      rw [prune]
      simp only [ih]
      exact congrArg Json.arr (List.ext_getElem (by simp) (by simp))
    | _ => rfl
  | record stated inner ih =>
    cases json with
    | obj fields =>
      have stays : pruneField stated (fun _ => false) (fun _ value => value) = some := by
        funext field
        simp [pruneField]
      rw [prune]
      simp only [ih, stays, List.filterMap_some]
    | _ => rfl

section Fields

variable {stated : List (String × Json)} {chosen : List Step → Bool}
  {inside : String → Json → Json} {fields : List (String × Json)}

theorem mem_pruned {field : String × Json}
    (h : field ∈ fields.filterMap (pruneField stated chosen inside)) :
  ∃ value, (field.1, value) ∈ fields ∧ field.2 = inside field.1 value
  := by
  obtain ⟨⟨key, value⟩, here, kept⟩ := List.mem_filterMap.mp h
  unfold pruneField at kept
  split at kept
  case isTrue => contradiction
  case isFalse =>
    cases kept
    exact ⟨value, here, rfl⟩

theorem keys_pruned (apart : (fields.map Prod.fst).Nodup) :
  ((fields.filterMap (pruneField stated chosen inside)).map Prod.fst).Nodup
  := by
  have sub : ((fields.filterMap (pruneField stated chosen inside)).map Prod.fst).Sublist
      (fields.map Prod.fst) := by
    induction fields with
    | nil => simp
    | cons field fields ih =>
      simp only [List.map_cons, List.nodup_cons] at apart
      rw [List.filterMap_cons, pruneField]
      split_ifs
      · exact (ih apart.2).cons _
      · exact (ih apart.2).cons_cons _
  exact apart.sublist sub

/-- What a pruned object holds under a key of the object. -/
theorem lookup_pruned (apart : (fields.map Prod.fst).Nodup) {key : String} {value : Json}
    (here : (key, value) ∈ fields) :
  (fields.filterMap (pruneField stated chosen inside)).lookup key
    = if chosen [.field key] ∧ stated.lookup key = some value then none
      else some (inside key value)
  := by
  split
  case isTrue left =>
    rw [List.lookup_eq_none_iff]
    rintro ⟨other, held⟩ h
    -- A field that stays is not the one left out, and the keys are distinct.
    have differ : key ≠ other := by
      rintro rfl
      obtain ⟨⟨other, was⟩, there, kept⟩ := List.mem_filterMap.mp h
      unfold pruneField at kept
      split at kept
      case isTrue => contradiction
      case isFalse stays =>
        cases kept
        cases List.inj_on_of_nodup_map apart here there rfl
        contradiction
    simpa using differ
  case isFalse stays =>
    apply lookup_of_mem (keys_pruned apart)
    exact List.mem_filterMap.mpr ⟨(key, value), here, if_neg stays⟩

/-- A field without a default stays. -/
theorem lookup_pruned_of_unstated (apart : (fields.map Prod.fst).Nodup) {key : String}
    {value : Json} (here : (key, value) ∈ fields) (always : stated.lookup key = none) :
  (fields.filterMap (pruneField stated chosen inside)).lookup key = some (inside key value)
  := by
  rw [lookup_pruned apart here, if_neg (by simp [always])]

end Fields

/-- A pruned value is still one that its text determines. -/
theorem writable_prune (defaults : Defaults) (chosen : List Step → Bool) {json : Json}
    (writable : json.Writable) :
  (defaults.prune chosen json).Writable
  := by
  induction defaults generalizing json chosen with
  | nowhere => exact writable
  | list each ih =>
    cases writable with
    | @arr items all =>
      refine .arr fun item h => ?_
      obtain ⟨i, bound, rfl⟩ := List.mem_mapIdx.mp h
      exact ih _ (all _ (List.getElem_mem bound))
    | _ => constructor <;> assumption
  | record stated inner ih =>
    cases writable with
    | @obj fields apart all =>
      refine .obj (keys_pruned apart) fun field h => ?_
      obtain ⟨value, here, pruned⟩ := mem_pruned h
      rw [pruned]
      exact ih _ _ (all _ here)
    | _ => constructor <;> assumption

end Defaults

/-! ### Written and read back -/

section Faithful

variable {α : Type} {encode : α → Json} {decode : Json → Read α} {defaults : Defaults}

/-- What is written has a text, and is read back with any of its defaults left out. -/
structure Faithful (encode : α → Json) (decode : Json → Read α) (defaults : Defaults) : Prop where
  writable (value : α) : (encode value).Writable
  reads (value : α) (chosen : List Step → Bool) :
    decode (defaults.prune chosen (encode value)) = .ok value

namespace Faithful

theorem reads_whole (faithful : Faithful encode decode defaults) (value : α) :
  decode (encode value) = .ok value
  := by
  have read := faithful.reads value fun _ => false
  rwa [defaults.prune_unchosen] at read

/-- Without leaving out anything. -/
theorem whole (faithful : Faithful encode decode defaults) :
  Faithful encode decode .nowhere
  where
  writable := faithful.writable
  reads value _ := faithful.reads_whole value

/-- Different values are written in different ways. -/
theorem injective (faithful : Faithful encode decode defaults) {a b : α}
    (same : encode a = encode b) :
  a = b
  := by
  have read := faithful.reads_whole a
  rw [same, faithful.reads_whole b] at read
  cases read
  rfl

/-- What is written is read back from its text. -/
theorem exchanged (faithful : Faithful encode decode defaults) (value : α) :
  parse? (encode value).render = some (encode value) ∧ decode (encode value) = .ok value
  := ⟨parse?_render (faithful.writable value), faithful.reads_whole value⟩

/-- What is written is read back from its text, also with defaults left out. -/
theorem exchanged_pruned (faithful : Faithful encode decode defaults) (value : α)
    (chosen : List Step → Bool) :
  parse? (defaults.prune chosen (encode value)).render
      = some (defaults.prune chosen (encode value))
    ∧ decode (defaults.prune chosen (encode value)) = .ok value
  := by
  refine ⟨parse?_render ?_, faithful.reads value chosen⟩
  exact defaults.writable_prune chosen (faithful.writable value)

theorem text :
  Faithful .str readText .nowhere
  where
  writable := .str
  reads _ _ := rfl

theorem bool :
  Faithful .bool readBool .nowhere
  where
  writable := .bool
  reads _ _ := rfl

theorem word :
  Faithful (fun n : UInt32 => .ofNat n.toNat) readWord .nowhere
  where
  writable n := by
    have small : n.toNat < UInt32.size := n.toNat_lt
    have sizes : UInt32.size < UInt64.size := by decide
    exact .int (by omega) (by omega)
  reads n _ := by
    have small : n.toNat < UInt32.size := n.toNat_lt
    rw [Defaults.prune_nowhere, ofNat, readWord, if_pos ⟨by omega, by omega⟩]
    simp

end Faithful

/-- The items of an array are read one after the other. -/
theorem readList_arr (items : List Json) (read : Json → Read α) :
  (Json.arr items).readList (fun item => read item.1) = items.mapM read
  := by
  have parts : (Json.arr items).itemParts.map Subtype.val = items := by
    simp [itemParts, Function.comp_def]
  change (Json.arr items).itemParts.mapM (read ∘ Subtype.val) = items.mapM read
  rw [← List.mapM_map, parts]

/-- The items are read one after the other, also if each is changed by its place. -/
theorem mapM_mapIdx (change : Nat → Json → Json)
    (reads : ∀ i value, decode (change i (encode value)) = .ok value) (values : List α) :
  ((values.map encode).mapIdx change).mapM decode = .ok values
  := by
  induction values generalizing change with
  | nil => rfl
  | cons value values ih =>
    rw [List.map_cons, List.mapIdx_cons, List.mapM_cons, reads, ih _ fun i => reads (i + 1)]
    rfl

namespace Faithful

theorem list (faithful : Faithful encode decode defaults) :
  Faithful (.ofList encode) (fun json => json.readList fun item => decode item.1) (.list defaults)
  where
  writable values := by
    refine .arr fun item h => ?_
    obtain ⟨value, _, rfl⟩ := List.mem_map.mp h
    exact faithful.writable value
  reads values chosen := by
    rw [ofList, Defaults.prune, readList_arr]
    exact mapM_mapIdx _ (fun i value => faithful.reads value _) values

theorem texts :
  Faithful .ofTexts readTexts .nowhere
  := text.list.whole

theorem option (faithful : Faithful encode decode defaults)
    (present : ∀ value, encode value ≠ .null) :
  Faithful (.ofOption encode) (readOption decode) .nowhere
  where
  writable
    | none => .null
    | some value => faithful.writable value
  reads value _ := by
    cases value with
    | none => rfl
    | some value =>
      rw [Defaults.prune_nowhere, ofOption, readOption, faithful.reads_whole]
      · rfl
      · exact present value

theorem text? :
  Faithful .ofText? (readOption readText) .nowhere
  := by
  have same : ofText? = ofOption .str := by
    funext value
    cases value <;> rfl
  rw [same]
  exact text.option (by simp)

end Faithful

end Faithful

end Wiring.Json
