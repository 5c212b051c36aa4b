import Mathlib.Tactic.SplitIfs
import Wiring.Json.Parser
import Wiring.Json.Printer

/-!
# Reading the text of a value

The text of a value is read as that value, however deep the value is nested. Left out are the
values that no text determines: an integer that 64 bits do not hold is read as a decimal number,
of two fields with one key the later one is read, and a decimal number loses digits.

Each lemma is about a text that goes on behind what it reads, and about every fuel that covers the
length of what it reads.
-/

namespace Wiring.Json

/-- A value that its text determines. -/
inductive Writable : Json → Prop where
  | null : Writable .null
  | bool (value : Bool) : Writable (.bool value)
  | int {n : Int} (low : -Nat.pow 2 63 ≤ n) (high : n < UInt64.size) : Writable (.int n)
  | str (value : String) : Writable (.str value)
  | arr {items : List Json} (each : ∀ item ∈ items, Writable item) : Writable (.arr items)
  | obj {fields : List (String × Json)} (apart : (fields.map Prod.fst).Nodup)
      (each : ∀ field ∈ fields, Writable field.2) : Writable (.obj fields)

/-! ### Keys -/

theorem insertField_of_notMem {key : String} {fields : List (String × Json)}
    (new : key ∉ fields.map Prod.fst) (value : Json) :
  insertField key value fields = fields ++ [(key, value)]
  := by
  induction fields with
  | nil => rfl
  | cons field fields ih =>
    obtain ⟨other, held⟩ := field
    simp only [List.map_cons, List.mem_cons, not_or] at new
    rw [insertField, if_neg (Ne.symm new.1), ih new.2]
    rfl

theorem notMem_of_apart {key : String} {value : Json} {done fields : List (String × Json)}
    (apart : ((done ++ (key, value) :: fields).map Prod.fst).Nodup) :
  key ∉ done.map Prod.fst
  := by
  rw [List.map_append, List.nodup_append] at apart
  intro h
  exact apart.2.2 key h key (by simp) rfl

namespace Parser

/-! ### White space -/

/-- A character that ends the white space before it. -/
def Visible (c : Char) : Prop :=
  c ≠ ' ' ∧ c ≠ '\t' ∧ c ≠ '\n' ∧ c ≠ '\r'

instance (c : Char) : Decidable (Visible c) := by
  unfold Visible
  infer_instance

theorem skipSpace_cons {c : Char} (visible : Visible c) (text : List Char) :
  skipSpace (c :: text) = c :: text
  := by
  obtain ⟨space, tab, newline, feed⟩ := visible
  simp [skipSpace, space, tab, newline, feed]

/-! ### Texts -/

theorem hexNumberOf?_append {digits : List Char} (text : List Char) :
  Text.hexNumberOf? digits.length (digits ++ text)
    = (Text.hexNumber? digits).map fun n => (n, text)
  := by
  simp [Text.hexNumberOf?]

/-- The four hexadecimal digits of a control character. -/
def controlDigits (n : Nat) : List Char :=
  List.replicate (4 - (Nat.toDigits 16 n).length) '0' ++ Nat.toDigits 16 n

theorem controlDigits_spec :
  ∀ n < 0x20, (controlDigits n).length = 4 ∧ Text.hexNumber? (controlDigits n) = some n
  := by
  decide

theorem numbered?_control {c : Char} (control : c.toNat < 0x20) (text : List Char) :
  numbered? (controlDigits c.toNat ++ text) = some (c, text)
  := by
  obtain ⟨four, written⟩ := controlDigits_spec c.toNat control
  have read : Text.hexNumberOf? 4 (controlDigits c.toNat ++ text) = some (c.toNat, text) := by
    rw [← four, hexNumberOf?_append, written]
    rfl
  simp only [numbered?, read, Option.bind_eq_bind, Option.bind_some]
  rw [if_neg (by omega), if_neg (by omega), Char.ofNat_toNat]
  rfl

/-- A character that has been escaped is read as one character. -/
theorem stringBody_escapedChar (fuel : Nat) (done : List Char) (c : Char) (text : List Char) :
  stringBody (fuel + 1) done (escapedChar c ++ text) = stringBody fuel (c :: done) text
  := by
  unfold escapedChar
  split
  case isTrue quote =>
    subst quote
    simp [stringBody, escaped?]
  case isFalse quote =>
    split
    case isTrue backslash =>
      subst backslash
      simp [stringBody, escaped?]
    case isFalse backslash =>
      split
      case isTrue control =>
        change stringBody (fuel + 1) done ('\\' :: 'u' :: (controlDigits c.toNat ++ text)) = _
        rw [stringBody, numbered?_control control]
        rfl
      case isFalse plain =>
        have allowed : ¬ (c.toNat < 0x20 ∨ c = '\\') := not_or.mpr ⟨plain, backslash⟩
        rw [List.singleton_append, stringBody, if_neg allowed]
        · exact quote
        · rintro _ rfl
          contradiction
        · rintro _ _ rfl
          contradiction

theorem stringBody_escaped (text : List Char) {fuel : Nat} (done rest : List Char)
    (enough : (text.flatMap escapedChar).length < fuel) :
  stringBody fuel done (text.flatMap escapedChar ++ '"' :: rest)
    = some (String.ofList (done.reverse ++ text), rest)
  := by
  induction text generalizing fuel done with
  | nil =>
    obtain ⟨fuel, rfl⟩ : ∃ less, fuel = less + 1 := ⟨fuel - 1, by omega⟩
    simp [stringBody]
  | cons c text ih =>
    obtain ⟨fuel, rfl⟩ : ∃ less, fuel = less + 1 := ⟨fuel - 1, by omega⟩
    have written : 0 < (escapedChar c).length := by
      unfold escapedChar
      split_ifs <;> simp
    rw [List.flatMap_cons, List.length_append] at enough
    rw [List.flatMap_cons, List.append_assoc, stringBody_escapedChar, ih _ (by omega)]
    simp

/-- The characters of a text between its quotes. -/
theorem toList_renderText (text : String) :
  (renderText text).toList = '"' :: (text.toList.flatMap escapedChar ++ ['"'])
  := by
  simp [renderText]

/-- A text is read behind its opening quote. -/
theorem stringBody_renderText (text : String) (fuel : Nat) (rest : List Char)
    (enough : (renderText text).toList.length ≤ fuel + 1) :
  ∃ body, (renderText text).toList ++ rest = '"' :: body
    ∧ stringBody fuel [] body = some (text, rest)
  := by
  rw [toList_renderText] at enough ⊢
  refine ⟨text.toList.flatMap escapedChar ++ '"' :: rest, ?_, ?_⟩
  · simp
  · simp only [List.length_cons, List.length_append, List.length_nil] at enough
    rw [stringBody_escaped _ _ _ (by omega)]
    simp

/-! ### Numbers -/

/-- What stands behind a value: nothing, or what separates or closes. -/
def Ends (rest : List Char) : Prop :=
  ∀ c ∈ rest.head?, c = ',' ∨ c = ']' ∨ c = '\x7d'

theorem Ends.nil :
  Ends []
  := by
  simp [Ends]

theorem Ends.cons {c : Char} (h : c = ',' ∨ c = ']' ∨ c = '\x7d') (rest : List Char) :
  Ends (c :: rest)
  := by
  simpa [Ends] using h

theorem digits?_append {digits rest : List Char} (some? : digits ≠ [])
    (all : ∀ c ∈ digits, c.isDigit) (ends : Ends rest) :
  digits? (digits ++ rest) = some (digits, rest)
  := by
  have stop : rest.takeWhile Char.isDigit = [] ∧ rest.dropWhile Char.isDigit = rest := by
    cases rest with
    | nil => simp
    | cons c rest =>
      obtain rfl | rfl | rfl := ends c rfl <;> simp [List.takeWhile, List.dropWhile]
  unfold digits?
  rw [List.takeWhile_append_of_pos all, List.dropWhile_append_of_pos all, stop.1, stop.2,
    List.append_nil]
  split
  case h_1 nothing => contradiction
  case h_2 => rfl

theorem fraction?_of_ends {rest : List Char} (ends : Ends rest) :
  fraction? rest = some ([], rest)
  := by
  cases rest with
  | nil => rfl
  | cons c rest => obtain rfl | rfl | rfl := ends c rfl <;> rfl

theorem exponent?_of_ends {rest : List Char} (ends : Ends rest) :
  exponent? rest = some (none, rest)
  := by
  cases rest with
  | nil => rfl
  | cons c rest => obtain rfl | rfl | rfl := ends c rfl <;> rfl

theorem decimalNumber_toDigits (n : Nat) :
  Text.decimalNumber (Nat.toDigits 10 n) = n
  := Nat.ofDigitChars_toDigits (by decide) (by decide)

theorem toDigits_begins (n : Nat) :
  ∃ c text, Nat.toDigits 10 n = c :: text ∧ c.isDigit
  := by
  obtain ⟨c, text, digits⟩ :=
    List.exists_cons_of_ne_nil (Nat.toDigits_ne_nil (b := 10) (n := n))
  have written : c ∈ Nat.toDigits 10 n := by simp [digits]
  exact ⟨c, text, digits, Nat.isDigit_of_mem_toDigits (by decide) (by decide) written⟩

/-- The digits of a positive number do not begin with a zero. -/
theorem head?_toDigits {n : Nat} (positive : 0 < n) :
  (Nat.toDigits 10 n).head? ≠ some '0'
  := by
  induction n using Nat.strongRecOn with
  | ind n ih =>
    rw [Nat.toDigits_eq_if (by decide)]
    split
    case isTrue small =>
      have digits : ∀ n < 10, 0 < n → [n.digitChar].head? ≠ some '0' := by decide
      apply digits n small positive
    case isFalse large =>
      obtain ⟨c, text, written, _⟩ := toDigits_begins (n / 10)
      have begins := ih (n / 10) (by omega) (by omega)
      rw [written] at begins ⊢
      exact begins

/-- The digits of a number without sign are read as far as they go. -/
theorem unsigned?_toDigits (negative : Bool) (n : Nat) {rest : List Char} (ends : Ends rest) :
  unsigned? negative (Nat.toDigits 10 n ++ rest)
    = (numberOf? negative (Nat.toDigits 10 n) [] none).map fun number => (number, rest)
  := by
  have all : ∀ c ∈ Nat.toDigits 10 n, c.isDigit :=
    fun c h => Nat.isDigit_of_mem_toDigits (by decide) (by decide) h
  have regular : ¬ ((Nat.toDigits 10 n).head? = some '0' ∧ 1 < (Nat.toDigits 10 n).length) := by
    rintro ⟨zero, long⟩
    cases Nat.eq_zero_or_pos n with
    | inl none => simp [none] at long
    | inr positive => exact head?_toDigits positive zero
  simp only [unsigned?, digits?_append Nat.toDigits_ne_nil all ends, Option.bind_eq_bind,
    Option.bind_some, if_neg regular, fraction?_of_ends ends, exponent?_of_ends ends]
  cases numberOf? negative (Nat.toDigits 10 n) [] none <;> rfl

theorem numberOf?_nat {n : Nat} (small : n < UInt64.size) :
  numberOf? false (Nat.toDigits 10 n) [] none = some (.int n)
  := by
  unfold numberOf?
  rw [decimalNumber_toDigits, if_pos (by simp [small])]

theorem numberOf?_neg {n : Nat} (positive : 0 < n) (small : n ≤ Nat.pow 2 63) :
  numberOf? true (Nat.toDigits 10 n) [] none = some (.int (-n))
  := by
  unfold numberOf?
  rw [decimalNumber_toDigits, if_neg (by simp), if_pos (by simp [positive, small])]

/-- The text of an integer: its digits, behind a minus if it is negative. -/
theorem toList_render_int (n : Int) :
  (render (.int n)).toList
    = if 0 ≤ n then Nat.toDigits 10 n.toNat else '-' :: Nat.toDigits 10 (-n).toNat
  := by
  rw [render, Int.toString_eq_repr, Int.repr_eq_if]
  split <;> simp

theorem visible_of_isDigit {c : Char} (digit : c.isDigit) :
  Visible c
  := by
  refine ⟨?_, ?_, ?_, ?_⟩ <;> (rintro rfl; contradiction)

/-- A digit is nothing else that a value begins with. -/
theorem value?_digit {c : Char} (digit : c.isDigit) (fuel : Nat) (text : List Char) :
  value? (fuel + 1) (c :: text) = unsigned? false (c :: text)
  := by
  have other (d : Char) (no : d.isDigit = false) : c ≠ d := by
    rintro rfl
    simp [no] at digit
  rw [value?, skipSpace_cons (visible_of_isDigit digit)]
  split
  case h_7 =>
    rw [number?]
    rintro _ same
    injection same with same
    exact other '-' (by decide) same
  all_goals
    rename_i same
    injection same with same
    exact absurd same (other _ (by decide))

/-- A minus begins a number. -/
theorem value?_minus (fuel : Nat) (text : List Char) :
  value? (fuel + 1) ('-' :: text) = unsigned? true text
  := by
  rw [value?, skipSpace_cons (by decide)]
  rfl

theorem value?_int {n : Int} (low : -Nat.pow 2 63 ≤ n) (high : n < UInt64.size) (fuel : Nat)
    {rest : List Char} (ends : Ends rest) :
  value? (fuel + 1) ((render (.int n)).toList ++ rest) = some (.int n, rest)
  := by
  rw [toList_render_int]
  split
  case isTrue natural =>
    obtain ⟨n, rfl⟩ := Int.eq_ofNat_of_zero_le natural
    have read := unsigned?_toDigits false n ends
    rw [numberOf?_nat (by omega)] at read
    obtain ⟨c, text, digits, digit⟩ := toDigits_begins n
    change value? (fuel + 1) (Nat.toDigits 10 n ++ rest) = _
    rw [digits, List.cons_append, value?_digit digit, ← List.cons_append, ← digits, read]
    rfl
  case isFalse negative =>
    have positive : 0 < (-n).toNat := by omega
    have read := unsigned?_toDigits true (-n).toNat ends
    rw [numberOf?_neg positive (by omega)] at read
    rw [List.cons_append, value?_minus, read]
    simp only [Option.map_some, Option.some.injEq, Prod.mk.injEq, int.injEq, and_true]
    omega

/-! ### Values -/

/-- The text of a value is read as the value, whatever stands behind it. -/
def ReadBack (json : Json) : Prop :=
  ∀ (fuel : Nat) (rest : List Char), (render json).toList.length ≤ fuel → Ends rest →
    value? fuel ((render json).toList ++ rest) = some (json, rest)

theorem toList_render_arr (items : List Json) :
  (render (.arr items)).toList = '[' :: ((renderItems items).toList ++ [']'])
  := by
  simp [render]

theorem toList_render_obj (fields : List (String × Json)) :
  (render (.obj fields)).toList = '\x7b' :: ((renderFields fields).toList ++ ['\x7d'])
  := by
  simp [render]

/-- The text of a value begins neither with white space nor with a closing bracket. -/
theorem render_begins {json : Json} (writable : json.Writable) :
  ∃ c text, (render json).toList = c :: text ∧ Visible c ∧ c ≠ ']'
  := by
  cases writable with
  | null => exact ⟨'n', ['u', 'l', 'l'], by simp [render], by decide, by decide⟩
  | bool value =>
    cases value with
    | false => exact ⟨'f', ['a', 'l', 's', 'e'], by simp [render], by decide, by decide⟩
    | true => exact ⟨'t', ['r', 'u', 'e'], by simp [render], by decide, by decide⟩
  | @int n =>
    rw [toList_render_int]
    split
    case isTrue natural =>
      obtain ⟨c, text, digits, digit⟩ := toDigits_begins n.toNat
      refine ⟨c, text, digits, visible_of_isDigit digit, ?_⟩
      rintro rfl
      contradiction
    case isFalse => exact ⟨'-', _, rfl, by decide, by decide⟩
  | str value =>
    exact ⟨'"', _, by rw [render, toList_renderText], by decide, by decide⟩
  | arr => exact ⟨'[', _, toList_render_arr _, by decide, by decide⟩
  | obj => exact ⟨'\x7b', _, toList_render_obj _, by decide, by decide⟩

theorem toList_renderItems_cons (item next : Json) (items : List Json) :
  (renderItems (item :: next :: items)).toList
    = (render item).toList ++ ',' :: (renderItems (next :: items)).toList
  := by
  simp [renderItems]

theorem toList_renderFields_singleton (key : String) (value : Json) :
  (renderFields [(key, value)]).toList = (renderText key).toList ++ ':' :: (render value).toList
  := by
  simp [renderFields]

theorem toList_renderFields_cons (key : String) (value : Json) (next : String × Json)
    (fields : List (String × Json)) :
  (renderFields ((key, value) :: next :: fields)).toList
    = (renderText key).toList
      ++ ':' :: ((render value).toList ++ ',' :: (renderFields (next :: fields)).toList)
  := by
  simp [renderFields]

theorem renderItems_begins {item : Json} (writable : item.Writable) (items : List Json) :
  ∃ c text, (renderItems (item :: items)).toList = c :: text ∧ Visible c ∧ c ≠ ']'
  := by
  obtain ⟨c, text, written, begins⟩ := render_begins writable
  cases items with
  | nil => exact ⟨c, text, written, begins⟩
  | cons next items =>
    rw [toList_renderItems_cons, written]
    exact ⟨c, _, rfl, begins⟩

theorem renderFields_begins (field : String × Json) (fields : List (String × Json)) :
  ∃ text, (renderFields (field :: fields)).toList = '"' :: text
  := by
  obtain ⟨key, value⟩ := field
  cases fields with
  | nil => exact ⟨_, by rw [toList_renderFields_singleton, toList_renderText]; rfl⟩
  | cons next fields => exact ⟨_, by rw [toList_renderFields_cons, toList_renderText]; rfl⟩

/-- The items of an array are read up to its closing bracket. -/
theorem items?_renderItems {item : Json} {items : List Json}
    (each : ∀ json ∈ item :: items, ReadBack json) (fuel : Nat) (rest : List Char)
    (enough : (renderItems (item :: items)).toList.length ≤ fuel) :
  items? (fuel + 1) ((renderItems (item :: items)).toList ++ ']' :: rest)
    = some (item :: items, rest)
  := by
  induction items generalizing item fuel with
  | nil =>
    have first := each item (by simp) fuel (']' :: rest)
    rw [renderItems] at enough ⊢
    rw [items?, first enough (Ends.cons (by simp) _)]
    simp only [skipSpace_cons (c := ']') (by decide)]
  | cons next items ih =>
    rw [toList_renderItems_cons, List.length_append, List.length_cons] at enough
    rw [toList_renderItems_cons, List.append_assoc, List.cons_append]
    obtain ⟨fuel, rfl⟩ : ∃ less, fuel = less + 1 := ⟨fuel - 1, by omega⟩
    have first := each item (by simp) (fuel + 1)
      (',' :: ((renderItems (next :: items)).toList ++ ']' :: rest))
    have others := ih (fun json h => each json (List.mem_cons_of_mem _ h)) fuel (by omega)
    rw [items?, first (by omega) (Ends.cons (by simp) _)]
    simp only [skipSpace_cons (c := ',') (by decide), others, Option.map_some]

/-- One field of an object is read up to the comma or the brace behind it. -/
theorem fields?_field {key : String} {value : Json} (read : ReadBack value) (fuel : Nat)
    {done : List (String × Json)} (new : key ∉ done.map Prod.fst) {text : List Char}
    (ends : Ends text)
    (enough : (renderText key).toList.length + (render value).toList.length ≤ fuel) :
  fields? (fuel + 1) done ((renderText key).toList ++ ':' :: ((render value).toList ++ text))
    = match skipSpace text with
      | ',' :: rest => fields? fuel (done ++ [(key, value)]) rest
      | '\x7d' :: rest => some (done ++ [(key, value)], rest)
      | _ => none
  := by
  obtain ⟨body, opened, named⟩ :=
    stringBody_renderText key fuel (':' :: ((render value).toList ++ text)) (by omega)
  rw [opened, fields?, skipSpace_cons (by decide)]
  simp only [named, skipSpace_cons (c := ':') (by decide), read fuel text (by omega) ends]
  rewrite [insertField_of_notMem new]
  rfl

/-- The fields of an object are read up to its closing brace, behind the ones before them. -/
theorem fields?_renderFields {field : String × Json} {fields : List (String × Json)}
    (each : ∀ f ∈ field :: fields, ReadBack f.2) (fuel : Nat) (done : List (String × Json))
    (apart : ((done ++ field :: fields).map Prod.fst).Nodup) (rest : List Char)
    (enough : (renderFields (field :: fields)).toList.length ≤ fuel) :
  fields? (fuel + 1) done ((renderFields (field :: fields)).toList ++ '\x7d' :: rest)
    = some (done ++ field :: fields, rest)
  := by
  induction fields generalizing field done fuel with
  | nil =>
    obtain ⟨key, value⟩ := field
    have new : key ∉ done.map Prod.fst := notMem_of_apart apart
    have first : ReadBack value := each (key, value) (by simp)
    rw [toList_renderFields_singleton, List.length_append, List.length_cons] at enough
    rw [toList_renderFields_singleton, List.append_assoc, List.cons_append,
      fields?_field first fuel new (Ends.cons (by simp) _) (by omega)]
    simp only [skipSpace_cons (c := '\x7d') (by decide)]
  | cons next fields ih =>
    obtain ⟨key, value⟩ := field
    have new : key ∉ done.map Prod.fst := notMem_of_apart apart
    have first : ReadBack value := each (key, value) (by simp)
    rw [toList_renderFields_cons] at enough ⊢
    simp only [List.length_append, List.length_cons] at enough
    simp only [List.append_assoc, List.cons_append]
    obtain ⟨fuel, rfl⟩ : ∃ less, fuel = less + 1 := ⟨fuel - 1, by omega⟩
    have apart : ((done ++ [(key, value)] ++ next :: fields).map Prod.fst).Nodup := by
      simpa using apart
    have others := ih (fun f h => each f (List.mem_cons_of_mem _ h)) fuel _ apart (by omega)
    rw [fields?_field first _ new (Ends.cons (by simp) _) (by omega)]
    simp only [skipSpace_cons (c := ',') (by decide), others]
    simp

/-- The text of a value is not empty, so that no fuel that covers it is used up. -/
theorem readBack_of_succ {json : Json} (writable : json.Writable)
    (read : ∀ (fuel : Nat) (rest : List Char), (render json).toList.length ≤ fuel + 1 →
      Ends rest → value? (fuel + 1) ((render json).toList ++ rest) = some (json, rest)) :
  ReadBack json
  := by
  intro fuel rest enough ends
  cases fuel with
  | zero =>
    obtain ⟨c, text, written, _⟩ := render_begins writable
    simp [written] at enough
  | succ fuel => exact read fuel rest enough ends

/-- Every value that its text determines is read back from its text. -/
theorem readBack {json : Json} (writable : json.Writable) :
  ReadBack json
  := by
  induction writable with
  | null => exact readBack_of_succ .null fun fuel rest enough ends => rfl
  | bool value =>
    refine readBack_of_succ (.bool value) fun fuel rest enough ends => ?_
    cases value <;> rfl
  | int low high =>
    exact readBack_of_succ (.int low high) fun fuel rest enough ends =>
      value?_int low high fuel ends
  | str value =>
    refine readBack_of_succ (.str value) fun fuel rest enough ends => ?_
    obtain ⟨body, opened, read⟩ := stringBody_renderText value fuel rest enough
    rw [render, opened, value?, skipSpace_cons (by decide)]
    simp only [read, Option.map_some]
  | @arr items each ih =>
    refine readBack_of_succ (.arr each) fun fuel rest enough ends => ?_
    cases items with
    | nil => rfl
    | cons item items =>
      rw [toList_render_arr] at enough ⊢
      simp only [List.length_cons, List.length_append, List.length_nil] at enough
      obtain ⟨fuel, rfl⟩ : ∃ less, fuel = less + 1 := ⟨fuel - 1, by omega⟩
      have read := items?_renderItems ih fuel rest (by omega)
      -- The first item tells a list from the closing bracket of an empty one.
      obtain ⟨c, text, written, visible, unclosed⟩ :=
        renderItems_begins (each item (by simp)) items
      rw [written] at read ⊢
      simp only [List.cons_append, List.append_assoc, List.nil_append] at read ⊢
      rw [value?, skipSpace_cons (by decide)]
      simp only [skipSpace_cons visible]
      split
      case h_1 closed =>
        injection closed
        contradiction
      case h_2 => rw [read]; rfl
  | @obj fields apart each ih =>
    refine readBack_of_succ (.obj apart each) fun fuel rest enough ends => ?_
    cases fields with
    | nil => rfl
    | cons field fields =>
      rw [toList_render_obj] at enough ⊢
      simp only [List.length_cons, List.length_append, List.length_nil] at enough
      obtain ⟨fuel, rfl⟩ : ∃ less, fuel = less + 1 := ⟨fuel - 1, by omega⟩
      have read := fields?_renderFields ih fuel [] apart rest (by omega)
      obtain ⟨text, written⟩ := renderFields_begins field fields
      rw [written] at read ⊢
      simp only [List.cons_append, List.append_assoc, List.nil_append] at read ⊢
      rw [value?, skipSpace_cons (by decide)]
      simp only [skipSpace_cons (c := '"') (by decide)]
      change Option.map _ (fields? (fuel + 1) [] _) = _
      rw [read]
      rfl

end Parser

/-- Reading the text of a value gives the value back. -/
theorem parse?_render {json : Json} (writable : json.Writable) :
  parse? json.render = some json
  := by
  have read := Parser.readBack writable (json.render.toList.length + 1) [] (by omega)
    Parser.Ends.nil
  rw [List.append_nil] at read
  simp only [parse?, read]
  rfl

end Wiring.Json
