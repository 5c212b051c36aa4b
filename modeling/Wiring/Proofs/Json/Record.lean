import Wiring.Proofs.Json.Defaults

/-!
# Reading records

A record gives a value when each of its fields does. A field that has to be there gives what its
part is read as; one with a default gives the same, or the default where it has been left out.
-/

namespace Wiring.Json

namespace Fields

variable {α β : Type}

/-- All fields are there and good, and make up the value. -/
def Gives (fields : Fields α) (value : α) : Prop :=
  fields = .read value

namespace Gives

theorem map (f : α → β) {fields : Fields α} {value : α} (given : fields.Gives value) :
  (f <$> fields).Gives (f value)
  := by
  subst given
  rfl

theorem seq {functions : Fields (α → β)} {f : α → β} (first : functions.Gives f)
    {fields : Fields α} {value : α} (given : fields.Gives value) :
  (functions <*> fields).Gives (f value)
  := by
  subst first given
  rfl

theorem named {fields : Fields α} {value : α} (given : fields.Gives value) :
  fields.named = .ok value
  := by
  subst given
  rfl

theorem listed {fields : Fields α} {value : α} (given : fields.Gives value) (expected : String)
    (length : Nat) :
  fields.listed expected length = .ok value
  := by
  subst given
  rfl

section Slots

variable {slots : String → Option β} {name : String} {read : β → Read α} {value : α}

/-- A field that is there and good. -/
theorem fieldOf {part : β} (found : slots name = some part) (reads : read part = .ok value)
    (absent : Fields α) :
  (Json.fieldOf name absent read (slots name)).Gives value
  := by
  simp only [Json.fieldOf, found, reads]
  rfl

/-- A field that has to be there, and is. -/
theorem required {part : β} (found : slots name = some part) (reads : read part = .ok value) :
  (Json.required name slots read).Gives value
  := fieldOf found reads _

/-- A field that has a default, but is there. -/
theorem optional {part : β} (found : slots name = some part) (reads : read part = .ok value)
    (absent : α) :
  (Json.optional name slots read absent).Gives value
  := fieldOf found reads _

/-- A field that has been left out gives its default. -/
theorem optional_absent (missing : slots name = none) :
  (Json.optional name slots read value).Gives value
  := by
  simp only [Json.optional, missing]
  rfl

end Slots

end Gives

end Fields

/-! ### Objects -/

/-- The parts of an object under its keys are its fields. -/
theorem map_fieldPart? (json : Json) (name : String) :
  (json.fieldPart? name).map Subtype.val = json.field? name
  := by
  cases json with
  | obj fields =>
    rw [fieldPart?, field?]
    split
    case h_1 value found => exact found.symm
    case h_2 missing => exact missing.symm
  | _ => rfl

section Record

variable {α β γ : Type} {encode : β → Json} {decode : Json → Read β}
  {fields stated : List (String × Json)} {inner : String → Defaults} {chosen : List Step → Bool}

/-- A record is read from a pruned object if its fields are; for these the keys are distinct. -/
theorem readRecord_prune {typeName : String} {names : List String}
    {build : (String → Option (Part ((Defaults.record stated inner).prune chosen (.obj fields)))) →
      Fields α} {value : α}
    (apart : (fields.map Prod.fst).Nodup)
    (given : (fields.map Prod.fst).Nodup →
      (build ((Defaults.record stated inner).prune chosen (.obj fields)).fieldPart?).Gives value) :
  ((Defaults.record stated inner).prune chosen (.obj fields)).readRecord typeName names build
    = .ok value
  := (given apart).named

section Slot

variable {name : String} {value absent : β} {slots : String → Option γ} {get : γ → Json}
  {read : γ → Read β}

/-- What the slots hold under the name of a field is what pruning makes of the field: nothing if it
is left out, or else its value pruned inside. -/
def HoldsPruned (slots : String → Option γ) (get : γ → Json) (stated : List (String × Json))
    (inner : String → Defaults) (chosen : List Step → Bool) (name : String) (value : Json) : Prop :=
  (slots name).map get
    = if chosen [.field name] ∧ stated.lookup name = some value then none
      else some ((inner name).prune (fun path => chosen (.field name :: path)) value)

/-- A field without a default is read from a pruned object. -/
theorem HoldsPruned.required
    (held : HoldsPruned slots get stated inner chosen name (encode value))
    (always : stated.lookup name = none) (faithful : Faithful encode decode (inner name))
    (same : read = fun part => decode (get part)) :
  (Json.required name slots read).Gives value
  := by
  rw [HoldsPruned, if_neg (by simp [always])] at held
  obtain ⟨part, found, pruned⟩ := Option.map_eq_some_iff.mp held
  refine .required found ?_
  simp only [same, pruned, faithful.reads]

/-- A field with a default is read from a pruned object, even if it has been left out. -/
theorem HoldsPruned.optional
    (held : HoldsPruned slots get stated inner chosen name (encode value))
    (default : stated.lookup name = some (encode absent))
    (faithful : Faithful encode decode (inner name))
    (same : read = fun part => decode (get part)) :
  (Json.optional name slots read absent).Gives value
  := by
  unfold HoldsPruned at held
  split at held
  case isTrue left =>
    have unchanged : absent = value := by
      apply faithful.injective
      rw [left.2, Option.some.injEq] at default
      exact default.symm
    subst unchanged
    exact .optional_absent (Option.map_eq_none_iff.mp held)
  case isFalse =>
    obtain ⟨part, found, pruned⟩ := Option.map_eq_some_iff.mp held
    refine .optional found ?_ absent
    simp only [same, pruned, faithful.reads]

end Slot

/-- A pruned object under its keys. -/
theorem holdsPruned_field? (stated : List (String × Json)) (inner : String → Defaults)
    (chosen : List Step → Bool) (apart : (fields.map Prod.fst).Nodup) {name : String} {value : Json}
    (here : (name, value) ∈ fields) :
  HoldsPruned (fun name => ((Defaults.record stated inner).prune chosen (.obj fields)).field? name)
    id stated inner chosen name value
  := by
  rw [HoldsPruned, Option.map_id, id_eq]
  exact Defaults.lookup_pruned apart here

/-- The parts of a pruned object. -/
theorem holdsPruned_fieldPart? (stated : List (String × Json)) (inner : String → Defaults)
    (chosen : List Step → Bool) (apart : (fields.map Prod.fst).Nodup) {name : String} {value : Json}
    (here : (name, value) ∈ fields) :
  HoldsPruned ((Defaults.record stated inner).prune chosen (.obj fields)).fieldPart? Subtype.val
    stated inner chosen name value
  := by
  rw [HoldsPruned, map_fieldPart?]
  exact Defaults.lookup_pruned apart here

section Parts

variable (apart : (fields.map Prod.fst).Nodup) {name : String}
  (faithful : Faithful encode decode (inner name)) {value absent : β}
  {read : Part ((Defaults.record stated inner).prune chosen (.obj fields)) → Read β}

include apart faithful

theorem required_prune (here : (name, encode value) ∈ fields)
    (always : stated.lookup name = none) (same : read = fun part => decode part.1) :
  (required name ((Defaults.record stated inner).prune chosen (.obj fields)).fieldPart? read).Gives
    value
  := (holdsPruned_fieldPart? stated inner chosen apart here).required always faithful same

theorem optional_prune (here : (name, encode value) ∈ fields)
    (default : stated.lookup name = some (encode absent))
    (same : read = fun part => decode part.1) :
  (optional name ((Defaults.record stated inner).prune chosen (.obj fields)).fieldPart? read
    absent).Gives value
  := (holdsPruned_fieldPart? stated inner chosen apart here).optional default faithful same

end Parts

end Record

/-! ### Alternatives -/

theorem ok_bind {α β : Type} (value : α) (next : α → Read β) :
  (Except.ok value >>= next) = next value
  := rfl

theorem readVariant_str {known : List String} {name : String} (isKnown : name ∈ known) :
  (Json.str name).readVariant known = .ok (name, none)
  := by
  rw [readVariant, if_pos isKnown]

theorem sizeOf_content_lt (name : String) (content : Json) :
  sizeOf content < sizeOf (Json.obj [(name, content)])
  := by
  simp
  omega

/-- An alternative with content goes on to be read by its name and its content. -/
theorem readVariant_obj {α : Type} {known : List String} {name : String} (isKnown : name ∈ known)
    (content : Json)
    (next : String × Option (Part (.obj [(name, content)])) → Read α) :
  ((Json.obj [(name, content)]).readVariant known >>= next)
    = next (name, some ⟨content, sizeOf_content_lt name content⟩)
  := by
  rw [readVariant, if_pos isKnown, ok_bind]

/-- An alternative without content is read from its name. -/
theorem readEnum_str {α : Type} {known : List (String × α)} {name : String} {value : α}
    (found : known.lookup name = some value) :
  (Json.str name).readEnum known = .ok value
  := by
  have isKnown : name ∈ known.map Prod.fst := by
    obtain ⟨before, behind, rfl, _⟩ := List.lookup_eq_some_iff.mp found
    simp
  rw [readEnum, readVariant_str isKnown]
  simp only [ok_bind, readUnit, found]
  rfl

theorem lookup_self {known : List String} {name : String} (isKnown : name ∈ known) :
  (known.map fun name => (name, name)).lookup name = some name
  := by
  induction known with
  | nil => contradiction
  | cons other known ih =>
    rw [List.map_cons, List.lookup_cons]
    split
    case h_1 same => rw [eq_of_beq same]
    case h_2 differ =>
      apply ih
      simpa [show name ≠ other by simpa using differ] using isKnown

/-- An alternative with its name under one key and its content under another. -/
theorem readTagged_obj {fields : List (String × Json)} {tag name : String} {known : List String}
    (tagged : fields.lookup tag = some (.str name)) (isKnown : name ∈ known)
    (typeName content : String) :
  (Json.obj fields).readTagged typeName tag content known = .ok (name, fields.lookup content)
  := by
  simp only [readTagged, tagged, readEnum_str (lookup_self isKnown), ok_bind]
  rfl

section Variant

variable {α β : Type} {json content : Json} (small : sizeOf content < sizeOf json)

/-- The parts of the content of an alternative, as parts of the whole. -/
def contentSlots (name : String) : Option (Part json) :=
  (content.fieldPart? name).map fun part => ⟨part.1, Nat.lt_trans part.2 small⟩

/-- The fields of an alternative are read from an object. -/
theorem readVariantRecord_obj {fields : List (String × Json)}
    {small : sizeOf (Json.obj fields) < sizeOf json} {manner : Manner} {typeName : String}
    {names : List String} {build : (String → Option (Part json)) → Fields α} {value : α}
    (given : (build (contentSlots small)).Gives value) :
  readVariantRecord manner typeName names (some ⟨.obj fields, small⟩) build = .ok value
  := by
  cases manner <;> exact given.named

/-- A field of the content of an alternative. -/
theorem required_content {name : String} {part : Json} (found : content.field? name = some part)
    {read : Json → Read β} {value : β} (reads : read part = .ok value) :
  (required name (contentSlots small) fun part => read part.1).Gives value
  := by
  rw [← map_fieldPart?] at found
  obtain ⟨part, held, rfl⟩ := Option.map_eq_some_iff.mp found
  have slot : contentSlots small name = some ⟨part.1, Nat.lt_trans part.2 small⟩ := by
    rw [contentSlots, held, Option.map_some]
  exact .required slot reads

/-- A list in the content of an alternative. -/
theorem required_content_list {name : String} {items : List Json}
    (found : content.field? name = some (.arr items)) {read : Json → Read β} {values : List β}
    (reads : items.mapM read = .ok values) :
  (required name (contentSlots small) fun part => part.1.readList fun item => read item.1).Gives
    values
  := by
  let readItems (json : Json) : Read (List β) := json.readList fun item => read item.1
  have list : readItems (.arr items) = .ok values := (readList_arr items read).trans reads
  exact required_content small found list

/-- The two items of an alternative are read from an array. -/
theorem readVariantPair_arr {first second : Json}
    {small : sizeOf (Json.arr [first, second]) < sizeOf json} {manner : Manner}
    {typeName expected left right excess : String}
    {build : (String → Option (Part json)) → Fields α} {value : α}
    (given : ∀ small₁ small₂,
      (build (listedPart? [left, right] [⟨first, small₁⟩, ⟨second, small₂⟩])).Gives value) :
  (readVariantPair manner typeName (some ⟨.arr [first, second], small⟩) >>= fun items =>
      readListed expected [left, right] excess items build)
    = .ok value
  := by
  have small₁ : sizeOf first < sizeOf json := by
    refine Nat.lt_trans ?_ small
    simp
    omega
  have small₂ : sizeOf second < sizeOf json := by
    refine Nat.lt_trans ?_ small
    simp
    omega
  have items : readVariantPair manner typeName (some ⟨.arr [first, second], small⟩)
      = .ok [⟨first, small₁⟩, ⟨second, small₂⟩] := by
    cases manner <;> rfl
  rw [items, ok_bind, readListed, (given _ _).listed]
  rfl

end Variant

end Wiring.Json
