import Mathlib.Data.Bool.AllAny
import Mathlib.Order.Filter.AtTopBot.Basic
import Mathlib.Tactic.Common
import Wiring.Proofs.Expr.Reader

/-!
# What the reader reads

The steps of the reader, for readings with enough fuel (`Reader.Reads`): what it makes of a text whose
parts it reads. Where an identifier, an operand or an expression stops depends on the character that
comes next.
-/

namespace Wiring

open Filter

namespace Reader

attribute [local simp] expr? operand? further? atom? worded? items? stmt? stmts?

/-! ### Enough fuel -/

/-- With enough fuel the reading comes to the result. -/
def Reads {α : Type} (read : Nat → Option α) (result : α) : Prop :=
  ∀ᶠ fuel in atTop, read fuel = some result

theorem Reads.of_succ {α : Type} {read : Nat → Option α} {result : α}
    (h : Reads (fun fuel => read (fuel + 1)) result) :
  Reads read result
  := by
  rw [Reads, ← map_add_atTop_eq_nat 1]
  exact h

/-- Readings of one text come to one result. -/
theorem Reads.unique {α : Type} {read : Nat → Option α} {x y : α} (hx : Reads read x)
    (hy : Reads read y) :
  x = y
  := by
  obtain ⟨fuel, hx, hy⟩ := (hx.and hy).exists
  rw [hx] at hy
  exact Option.some.inj hy

/-! ### Boundaries -/

/-- The text does not go on with a character of an identifier. -/
def Parts (rest : List Char) : Prop :=
  ∀ c ∈ rest.head?, isIdentifierChar c = false

/-- The text goes on with what does not belong to an operand. -/
def Ends (rest : List Char) : Prop :=
  ∀ c ∈ rest.head?, c ∈ [' ', ',', ')', ';']

/-- The text goes on with what may stand behind a whole expression. -/
def Closes (rest : List Char) : Prop :=
  ∀ c ∈ rest.head?, c ∈ [',', ')', ';']

/-- The text begins as an expression does. -/
def Begins (text : List Char) : Prop :=
  ∃ c more, text = c :: more ∧ (isIdentifierChar c = true ∨ c = '"' ∨ c = '(')

variable {text rest others : List Char}

theorem Parts.cons {c : Char} (h : isIdentifierChar c = false) (rest : List Char) :
  Parts (c :: rest)
  := by
  simpa [Parts] using h

theorem Ends.parts (h : Ends rest) :
  Parts rest
  := by
  have apart : ∀ c ∈ [' ', ',', ')', ';'], isIdentifierChar c = false :=
    List.all_iff_forall_prop.mp (by decide)
  intro c hc
  apply apart c (h c hc)

theorem Ends.space (rest : List Char) :
  Ends (' ' :: rest)
  := by
  simp [Ends]

theorem Closes.nil :
  Closes []
  := by
  simp [Closes]

theorem Closes.cons {c : Char} (h : c ∈ [',', ')', ';']) (rest : List Char) :
  Closes (c :: rest)
  := by
  simpa [Closes] using h

theorem Closes.ends (h : Closes rest) :
  Ends rest
  := by
  intro c hc
  exact List.mem_cons_of_mem _ (h c hc)

theorem Closes.ne_space (h : Closes rest) (others : List Char) :
  rest ≠ ' ' :: others
  := by
  rintro rfl
  simp [Closes] at h

/-- What an expression begins with is no mark and closes nothing. -/
theorem Begins.ne_cons {c : Char} (h : Begins text)
    (mark : c ∈ [' ', ')', '\x7d', '=', '?', '&']) (more : List Char) :
  text ≠ c :: more
  := by
  have apart : ∀ d ∈ [' ', ')', '\x7d', '=', '?', '&'],
      ¬ (isIdentifierChar d = true ∨ d = '"' ∨ d = '(') :=
    List.all_iff_forall_prop.mp (by decide)
  obtain ⟨_, _, rfl, first⟩ := h
  rintro ⟨⟩
  exact apart c mark first

/-! ### Words -/

theorem begins_of_isIdentifier {s : String} (h : isIdentifier s) (rest : List Char) :
  Begins (s.toList ++ rest)
  := by
  obtain ⟨first, more, letters, -, all⟩ := isIdentifier_iff.mp h
  rw [letters] at all ⊢
  exact ⟨first, more ++ rest, rfl, .inl (all first List.mem_cons_self)⟩

/-- An identifier is taken whole, and no more than it. -/
theorem take_identifier {s : String} (h : isIdentifier s) (parts : Parts rest) :
  (s.toList ++ rest).takeWhile isIdentifierChar = s.toList
    ∧ (s.toList ++ rest).dropWhile isIdentifierChar = rest
  := by
  obtain ⟨_, _, _, _, all⟩ := isIdentifier_iff.mp h
  rw [List.takeWhile_append_of_pos all, List.dropWhile_append_of_pos all]
  cases rest with
  | nil => simp
  | cons c rest => simp [List.takeWhile, List.dropWhile, parts c rfl]

/-- A dotted name is taken up to the parenthesis behind it. -/
theorem take_className {className : String} (h : isDottedIdentifier className)
    (rest : List Char) :
  (' ' :: (className.toList ++ '(' :: rest)).takeWhile (· ≠ '(') = ' ' :: className.toList
    ∧ (' ' :: (className.toList ++ '(' :: rest)).dropWhile (· ≠ '(') = '(' :: rest
  := by
  have all : ∀ c ∈ ' ' :: className.toList, decide (c ≠ '(') = true := by
    intro c member
    rw [decide_eq_true_eq]
    rintro rfl
    obtain _ | member := List.mem_cons.mp member
    · contradiction
    · exact not_mem_of_isDottedIdentifier h member
  rw [← List.cons_append, List.takeWhile_append_of_pos all, List.dropWhile_append_of_pos all]
  simp

theorem atom?_word {word : String} (h : isIdentifier word) (parts : Parts rest) (fuel : Nat) :
  atom? (fuel + 1) (word.toList ++ rest) = worded? fuel word rest
  := by
  obtain ⟨taken, dropped⟩ := take_identifier h parts
  obtain ⟨first, more, letters, -, all⟩ := isIdentifier_iff.mp h
  have letter : isIdentifierChar first := all first (letters ▸ List.mem_cons_self)
  rw [atom?, taken, dropped, String.ofList_toList]
  · rw [letters, List.cons_append]
    rintro _ ⟨rfl, -⟩
    contradiction
  · rw [letters, List.cons_append]
    rintro _ ⟨rfl, -⟩
    contradiction

theorem worded?_name {word : String} (plain : word ∉ expressionWords) (fuel : Nat) :
  worded? (fuel + 1) word rest = some (.name word, rest)
  := by
  simp only [expressionWords, List.mem_cons, List.not_mem_nil, or_false, not_or] at plain
  rw [worded?] <;> simp [plain]

/-- A word is read as what begins with it. -/
theorem Reads.word {word : String} {result : Expr × List Char} (h : isIdentifier word)
    (parts : Parts rest) (worded : Reads (worded? · word rest) result) :
  Reads (atom? · (word.toList ++ rest)) result
  := by
  apply Reads.of_succ
  filter_upwards [worded] with fuel worded
  rw [atom?_word h parts, worded]

/-! ### Steps of the reader -/

variable {e : Expr}

/-- Nothing is asked of an operand that ends. -/
theorem Reads.further_none (ends : Ends rest) :
  Reads (further? · e rest) (e, rest)
  := by
  have step : ∀ fuel, further? (fuel + 1) e rest = some (e, rest) := by
    intro fuel
    rw [further?]
    · rintro _ rfl
      simp [Ends] at ends
    · rintro _ rfl
      simp [Ends] at ends
  apply Reads.of_succ
  exact .of_forall step

theorem Reads.operand_of_atom {head : Expr} {result : Expr × List Char}
    (atom : Reads (atom? · text) (head, others)) (further : Reads (further? · head others) result) :
  Reads (operand? · text) result
  := by
  apply Reads.of_succ
  filter_upwards [atom, further] with fuel atom further
  rw [operand?, atom]
  exact further

/-- An operand without a mark behind it is the whole expression. -/
theorem Reads.whole_of_operand (operand : Reads (operand? · text) (e, rest))
    (unmarked : ∀ c more, rest = ' ' :: c :: more → c ∉ ['=', '?', '&']) :
  Reads (expr? · text) (e, rest)
  := by
  apply Reads.of_succ
  filter_upwards [operand] with fuel operand
  simp only [expr?, operand, Option.bind_eq_bind, Option.bind_some]
  split
  · simp at unmarked
  · simp at unmarked
  · simp at unmarked
  · rfl

theorem Reads.whole_of_atom (atom : Reads (atom? · text) (e, rest)) (closes : Closes rest) :
  Reads (expr? · text) (e, rest)
  := by
  apply Reads.whole_of_operand (atom.operand_of_atom (.further_none closes.ends))
  intro c more eq
  exact absurd eq (closes.ne_space _)

theorem Reads.assign {target : String} {value : Expr}
    (left : Reads (operand? · text) (.name target, ' ' :: '=' :: ' ' :: others))
    (right : Reads (expr? · others) (value, rest)) :
  Reads (expr? · text) (.assign target value, rest)
  := by
  apply Reads.of_succ
  filter_upwards [left, right] with fuel left right
  simp [left, right, nameOf]

theorem Reads.and {left right : Expr}
    (first : Reads (operand? · text) (left, ' ' :: '&' :: '&' :: ' ' :: others))
    (second : Reads (operand? · others) (right, rest)) :
  Reads (expr? · text) (.and left right, rest)
  := by
  apply Reads.of_succ
  filter_upwards [first, second] with fuel first second
  simp [first, second]

theorem Reads.conditional {test consequent alternate : Expr} {last : List Char}
    (first : Reads (operand? · text) (test, ' ' :: '?' :: ' ' :: others))
    (second : Reads (operand? · others) (consequent, ' ' :: ':' :: ' ' :: last))
    (third : Reads (operand? · last) (alternate, rest)) :
  Reads (expr? · text) (.conditional test consequent alternate, rest)
  := by
  apply Reads.of_succ
  filter_upwards [first, second, third] with fuel first second third
  simp [first, second, third]

theorem Reads.new {className : String} {args : List Expr} (dotted : isDottedIdentifier className)
    (items : Reads (items? · others) (args, rest)) :
  Reads (worded? · "new" (' ' :: (className.toList ++ '(' :: others))) (.new className args, rest)
  := by
  obtain ⟨taken, dropped⟩ := take_className dotted others
  apply Reads.of_succ
  filter_upwards [items] with fuel items
  rw [worded?, taken, dropped, List.drop_one, List.tail_cons, items]
  simp

theorem Reads.function {params : List Expr} {body : List Stmt}
    (items : Reads (items? · text) (params, ' ' :: '\x7b' :: ' ' :: others))
    (stmts : Reads (stmts? · others) (body, rest)) :
  Reads (worded? · "function" ('(' :: text)) (.function (params.map nameOf) body, rest)
  := by
  apply Reads.of_succ
  filter_upwards [items, stmts] with fuel items stmts
  rw [worded?, List.drop_one, List.tail_cons, items]
  simp [stmts]

/-- The last of several expressions. -/
theorem Reads.items_last (begins : Begins text) (first : Reads (expr? · text) (e, ')' :: rest)) :
  Reads (items? · text) ([e], rest)
  := by
  apply Reads.of_succ
  filter_upwards [first] with fuel first
  rw [items?, first]
  · rfl
  · exact fun _ => begins.ne_cons (by decide) _

/-- An expression that others follow. -/
theorem Reads.items_next {es : List Expr} (begins : Begins text)
    (first : Reads (expr? · text) (e, ',' :: ' ' :: others))
    (next : Reads (items? · others) (es, rest)) :
  Reads (items? · text) (e :: es, rest)
  := by
  apply Reads.of_succ
  filter_upwards [first, next] with fuel first next
  rw [items?, first]
  · simp [next]
  · exact fun _ => begins.ne_cons (by decide) _

/-- A word in front of what begins as an expression does is not part of it. -/
theorem Reads.introduction {word : String} (identifier : isIdentifier word)
    (plain : word ∉ expressionWords) (begins : Begins others) :
  Reads (expr? · (word.toList ++ ' ' :: others)) (.name word, ' ' :: others)
  := by
  have worded : Reads (worded? · word (' ' :: others)) (.name word, ' ' :: others) :=
    .of_succ (.of_forall (worded?_name plain))
  have atom := Reads.word identifier (.cons (by decide) _) worded
  apply (atom.operand_of_atom (.further_none (.space _))).whole_of_operand
  rintro c more ⟨⟩ mark
  have mark : c ∈ [' ', ')', '\x7d', '=', '?', '&'] := by
    simp only [List.mem_cons] at mark ⊢
    tauto
  exact begins.ne_cons mark more rfl

theorem Reads.declare {name : String} {value : Expr}
    (word : Reads (expr? · text) (.name "var", ' ' :: others))
    (assignment : Reads (expr? · others) (.assign name value, ';' :: rest)) :
  Reads (stmt? · text) (.declare name value, rest)
  := by
  apply Reads.of_succ
  filter_upwards [word, assignment] with fuel word assignment
  simp [word, assignment]

theorem Reads.result {value : Expr} (word : Reads (expr? · text) (.name "return", ' ' :: others))
    (expression : Reads (expr? · others) (value, ';' :: rest)) :
  Reads (stmt? · text) (.result value, rest)
  := by
  apply Reads.of_succ
  filter_upwards [word, expression] with fuel word expression
  simp [word, expression]

theorem Reads.evaluate {value : Expr} (expression : Reads (expr? · text) (value, ';' :: rest)) :
  Reads (stmt? · text) (.evaluate value, rest)
  := by
  apply Reads.of_succ
  filter_upwards [expression] with fuel expression
  simp [expression]

/-- The last of several statements. -/
theorem Reads.stmts_last {s : Stmt} (begins : Begins text)
    (first : Reads (stmt? · text) (s, ' ' :: '\x7d' :: rest)) :
  Reads (stmts? · text) ([s], rest)
  := by
  apply Reads.of_succ
  filter_upwards [first] with fuel first
  rw [stmts?, first]
  · rfl
  · exact fun _ => begins.ne_cons (by decide) _

/-- A statement that others follow. -/
theorem Reads.stmts_next {s : Stmt} {body : List Stmt} (begins : Begins text)
    (first : Reads (stmt? · text) (s, ' ' :: others)) (more : Begins others)
    (next : Reads (stmts? · others) (body, rest)) :
  Reads (stmts? · text) (s :: body, rest)
  := by
  apply Reads.of_succ
  filter_upwards [first, next] with fuel first next
  rw [stmts?, first]
  · simp only [Option.bind_eq_bind, Option.bind_some]
    split
    case h_1 closed =>
      exact absurd (List.cons.inj closed).2 (more.ne_cons (by decide) _)
    case h_2 =>
      simp [next]
  · exact fun _ => begins.ne_cons (by decide) _

end Reader

end Wiring
