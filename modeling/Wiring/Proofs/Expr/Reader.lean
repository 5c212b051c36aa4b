import Wiring.Expr.Text
import Wiring.Proofs.Expr.Evaluation
import Wiring.Proofs.Text.Quoted

/-!
# Reading the text of a plan

A reader for the text form of expressions and statements. A word is read as far as it goes and tells
what stands there. Behind an operand come the members and calls that are asked of it, and then perhaps
the mark of an assignment, a conditional or a conjunction. An expression between parentheses is read
without them; several expressions, or none, are a sequence.

The reader gets fuel for its descent. It does not find fault with all texts that are not printed; what
it is for is to tell printed ones apart.
-/

namespace Wiring

/-- A character of an identifier. -/
def isIdentifierChar (c : Char) : Bool :=
  c.isAlphanum || c = '_' || c = '$'

/-- Letters, digits, underscores and dollars, the first one no digit. -/
def isIdentifier (s : String) : Bool :=
  match s.toList with
  | [] => false
  | first :: rest => !first.isDigit && (first :: rest).all isIdentifierChar

theorem isIdentifier_iff {s : String} :
  isIdentifier s = true
    ↔ ∃ first more, s.toList = first :: more ∧ first.isDigit = false
      ∧ ∀ c ∈ s.toList, isIdentifierChar c
  := by
  unfold isIdentifier
  cases s.toList with
  | nil => simp
  | cons first more => simp

/-- The words that an expression other than a name begins with. -/
def expressionWords : List String :=
  ["null", "this", "super", "arguments", "new", "function"]

/-- The words that are not names. -/
def reservedWords : List String :=
  expressionWords ++ ["var", "return"]

/-- An identifier that is not reserved. -/
def isName (s : String) : Bool :=
  isIdentifier s && !reservedWords.contains s

theorem isName_iff {name : String} :
  isName name = true ↔ isIdentifier name = true ∧ name ∉ reservedWords
  := by
  simp [isName]

/-- Identifiers with dots between them. -/
def isDottedIdentifier (s : String) : Bool :=
  (segments s).all isIdentifier

theorem mem_of_mem_intersperse {α : Type} {x separator : α} {l : List α}
    (h : x ∈ l.intersperse separator) :
  x = separator ∨ x ∈ l
  := by
  induction l with
  | nil => contradiction
  | cons y l ih =>
      cases l with
      | nil => exact .inr h
      | cons z l =>
          simp only [List.intersperse_cons_cons, List.mem_cons] at h ih ⊢
          tauto

/-- What a text consists of is the separator or stands in a piece. -/
theorem mem_splitOn {c : Char} {text : List Char} (h : c ∈ text) (separator : Char) :
  c = separator ∨ ∃ piece ∈ text.splitOn separator, c ∈ piece
  := by
  have whole : [separator].intercalate (text.splitOn separator) = text :=
    List.intercalate_splitOn separator
  rw [← whole, List.intercalate, List.mem_flatten] at h
  obtain ⟨piece, member, h⟩ := h
  obtain rfl | member := mem_of_mem_intersperse member
  · exact .inl (List.mem_singleton.mp h)
  · exact .inr ⟨piece, member, h⟩

theorem not_mem_of_isDottedIdentifier {className : String} (h : isDottedIdentifier className) :
  '(' ∉ className.toList
  := by
  intro member
  obtain dot | ⟨piece, of_name, member⟩ := mem_splitOn member '.'
  · contradiction
  · have identifier : isIdentifier (String.ofList piece) :=
      List.all_eq_true.mp h _ (List.mem_map_of_mem of_name)
    obtain ⟨_, _, _, _, all⟩ := isIdentifier_iff.mp identifier
    rw [String.toList_ofList] at all
    exact absurd (all _ member) (by decide)

/-! ### Readable plans -/

mutual

/-- The expression has no source text and no sequence of one, and all that it names is named by
identifiers. -/
def Expr.isReadable : Expr → Bool
  | .raw _ => false
  | .name name => isName name
  | .member object property => object.isReadable && isIdentifier property
  | .new className args => isDottedIdentifier className && Expr.areReadable args
  | .call callee args => callee.isReadable && Expr.areReadable args
  | .assign target value => isName target && value.isReadable
  | .sequence items => items.length != 1 && Expr.areReadable items
  | .conditional test consequent alternate =>
    test.isReadable && consequent.isReadable && alternate.isReadable
  | .and left right => left.isReadable && right.isReadable
  | .function params body => params.all isName && Stmt.areReadable body
  | _ => true

/-- All expressions of a list are readable. -/
def Expr.areReadable : List Expr → Bool
  | [] => true
  | e :: rest => e.isReadable && Expr.areReadable rest

/-- What holds of readable expressions holds of the statement. -/
def Stmt.isReadable : Stmt → Bool
  | .declare name value => isName name && value.isReadable
  | .evaluate value => value.isReadable
  | .result value => value.isReadable

/-- All statements of a body are readable. -/
def Stmt.areReadable : List Stmt → Bool
  | [] => true
  | s :: rest => s.isReadable && Stmt.areReadable rest

end

/-! ### The reader -/

namespace Reader

/-- The name in an expression that is one. -/
def nameOf : Expr → String
  | .name name => name
  | _ => ""

mutual

/-- The expression at the front of a text, and the rest of the text. -/
def expr? : Nat → List Char → Option (Expr × List Char)
  | 0, _ => none
  | fuel + 1, text => do
    let (left, rest) ← operand? fuel text
    match rest with
    | ' ' :: '=' :: ' ' :: rest =>
      let (value, rest) ← expr? fuel rest
      return (.assign (nameOf left) value, rest)
    | ' ' :: '?' :: ' ' :: rest =>
      let (consequent, rest) ← operand? fuel rest
      match rest with
      | ' ' :: ':' :: ' ' :: rest =>
        let (alternate, rest) ← operand? fuel rest
        return (.conditional left consequent alternate, rest)
      | _ => none
    | ' ' :: '&' :: '&' :: ' ' :: rest =>
      let (right, rest) ← operand? fuel rest
      return (.and left right, rest)
    | rest => return (left, rest)

/-- An operand, up to what cannot be asked of one. -/
def operand? : Nat → List Char → Option (Expr × List Char)
  | 0, _ => none
  | fuel + 1, text => do
    let (head, rest) ← atom? fuel text
    further? fuel head rest

/-- An operand with the members and calls that are asked of it at the front of a text. -/
def further? : Nat → Expr → List Char → Option (Expr × List Char)
  | 0, _, _ => none
  | fuel + 1, e, '.' :: rest =>
    further? fuel (.member e (String.ofList (rest.takeWhile isIdentifierChar)))
      (rest.dropWhile isIdentifierChar)
  | fuel + 1, e, '(' :: rest => do
    let (args, rest) ← items? fuel rest
    further? fuel (.call e args) rest
  | _ + 1, e, rest => some (e, rest)

/-- An expression that begins with a quote, a parenthesis or a word. -/
def atom? : Nat → List Char → Option (Expr × List Char)
  | 0, _ => none
  | _ + 1, '"' :: rest =>
    (Text.unquoted? ('"' :: rest)).map fun (value, rest) => (.str value, rest)
  | fuel + 1, '(' :: rest => do
    let (items, rest) ← items? fuel rest
    match items with
    | [e] => return (e, rest)
    | items => return (.sequence items, rest)
  | fuel + 1, text =>
    worded? fuel (String.ofList (text.takeWhile isIdentifierChar))
      (text.dropWhile isIdentifierChar)

/-- The expression that begins with a word. -/
def worded? : Nat → String → List Char → Option (Expr × List Char)
  | 0, _, _ => none
  | _ + 1, "null", rest => some (.null, rest)
  | _ + 1, "this", rest => some (.this, rest)
  | _ + 1, "super", rest => some (.super, rest)
  | _ + 1, "arguments", rest => some (.arguments, rest)
  | fuel + 1, "new", rest => do
    let (args, others) ← items? fuel ((rest.dropWhile (· ≠ '(')).drop 1)
    return (.new (String.ofList ((rest.takeWhile (· ≠ '(')).drop 1)) args, others)
  | fuel + 1, "function", rest => do
    let (params, rest) ← items? fuel (rest.drop 1)
    let (body, rest) ← stmts? fuel (rest.drop 3)
    return (.function (params.map nameOf) body, rest)
  | _ + 1, word, rest => some (.name word, rest)

/-- The expressions up to a closing parenthesis, and the rest behind it. -/
def items? : Nat → List Char → Option (List Expr × List Char)
  | 0, _ => none
  | _ + 1, ')' :: rest => some ([], rest)
  | fuel + 1, text => do
    let (first, rest) ← expr? fuel text
    match rest with
    | ')' :: rest => return ([first], rest)
    | rest =>
      let (others, rest) ← items? fuel (rest.drop 2)
      return (first :: others, rest)

/-- The statement at the front of a text. -/
def stmt? : Nat → List Char → Option (Stmt × List Char)
  | 0, _ => none
  | fuel + 1, text => do
    let (first, rest) ← expr? fuel text
    match first, rest with
    | .name "var", ' ' :: rest =>
      let (e, rest) ← expr? fuel rest
      match e with
      | .assign name value => return (.declare name value, rest.drop 1)
      | _ => none
    | .name "return", ' ' :: rest =>
      let (value, rest) ← expr? fuel rest
      return (.result value, rest.drop 1)
    | value, rest => return (.evaluate value, rest.drop 1)

/-- The statements up to a closing brace, and the rest behind it. -/
def stmts? : Nat → List Char → Option (List Stmt × List Char)
  | 0, _ => none
  | _ + 1, ' ' :: '\x7d' :: rest => some ([], rest)
  | fuel + 1, text => do
    let (first, rest) ← stmt? fuel text
    match rest with
    | ' ' :: '\x7d' :: rest => return ([first], rest)
    | rest =>
      let (others, rest) ← stmts? fuel (rest.drop 1)
      return (first :: others, rest)

end

end Reader

end Wiring
