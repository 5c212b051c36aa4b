import Wiring.Proofs.Expr.Reading

/-!
# The text of a plan tells the plan

Readable expressions, and readable statements, have one text only if they are one (`text_injective`).
The reader reads the text of an expression back, as a whole where nothing but a separator, a closing
parenthesis or a semicolon follows, and as an operand wherever no further letters follow
(`Expr.ReadBack`). An operand is read together with the members and calls behind it, so what is
proved of it is that the reader goes on from it with the rest of the text.
-/

namespace Wiring

open Reader

attribute [local simp] Expr.text Expr.texts Stmt.text Stmt.texts

/-! ### Expressions that are read back -/

/-- The reader reads the text of the expression as the expression: alone, and as an operand, from
which it goes on to what is asked of it. -/
structure Expr.ReadBack (e : Expr) : Prop where
  begins : ∀ rest, Begins (e.text.toList ++ rest)
  whole : ∀ rest, Closes rest → Reads (expr? · (e.text.toList ++ rest)) (e, rest)
  operand : ∀ rest result, Parts rest → Reads (further? · e rest) result →
    Reads (operand? · ((e.operand e.text).toList ++ rest)) result

namespace Expr.ReadBack

variable {e : Expr} {rest : List Char}

theorem operand_eq_of_isOpen (opened : e.isOpen = true) (rest : List Char) :
  (e.operand e.text).toList ++ rest = '(' :: (e.text.toList ++ ')' :: rest)
  := by
  simp [Expr.operand, opened]

theorem operand_begins (h : e.ReadBack) (rest : List Char) :
  Begins ((e.operand e.text).toList ++ rest)
  := by
  cases opened : e.isOpen with
  | false =>
      rw [Expr.operand, opened]
      exact h.begins rest
  | true =>
      rw [operand_eq_of_isOpen opened]
      exact ⟨'(', _, rfl, .inr (.inr rfl)⟩

/-- An operand in front of a mark is read alone. -/
theorem ended (h : e.ReadBack) (ends : Ends rest) :
  Reads (operand? · ((e.operand e.text).toList ++ rest)) (e, rest)
  := by
  exact h.operand rest _ ends.parts (.further_none ends)

theorem of_operand (closed : e.isOpen = false) (begins : ∀ rest, Begins (e.text.toList ++ rest))
    (operand : ∀ rest result, Parts rest → Reads (further? · e rest) result →
      Reads (operand? · (e.text.toList ++ rest)) result) :
  e.ReadBack
  := by
  refine ⟨begins, fun rest closes => ?_, fun rest result parts further => ?_⟩
  · have alone := operand rest _ closes.ends.parts (.further_none closes.ends)
    exact alone.whole_of_operand fun c more eq => absurd eq (closes.ne_space _)
  · rw [Expr.operand, closed]
    exact operand rest result parts further

theorem of_atom (closed : e.isOpen = false) (begins : ∀ rest, Begins (e.text.toList ++ rest))
    (atom : ∀ rest, Parts rest → Reads (atom? · (e.text.toList ++ rest)) (e, rest)) :
  e.ReadBack
  := by
  apply of_operand closed begins
  intro rest result parts further
  exact (atom rest parts).operand_of_atom further

/-- What is open stands in parentheses as an operand. -/
theorem of_whole (opened : e.isOpen = true) (begins : ∀ rest, Begins (e.text.toList ++ rest))
    (whole : ∀ rest, Closes rest → Reads (expr? · (e.text.toList ++ rest)) (e, rest)) :
  e.ReadBack
  := by
  refine ⟨begins, whole, fun rest result _ further => ?_⟩
  have items : Reads (items? · (e.text.toList ++ ')' :: rest)) ([e], rest) :=
    .items_last (begins _) (whole _ (.cons (by decide) _))
  rw [operand_eq_of_isOpen opened]
  refine .operand_of_atom ?_ further
  apply Reads.of_succ
  filter_upwards [items] with fuel items
  rw [atom?, items]
  rfl

theorem of_word (word : String) (h : isIdentifier word) (closed : e.isOpen = false)
    (text : e.text = word)
    (worded : ∀ fuel rest, worded? (fuel + 1) word rest = some (e, rest)) :
  e.ReadBack
  := by
  subst text
  apply of_atom closed (begins_of_isIdentifier h)
  intro rest parts
  apply Reads.word h parts
  apply Reads.of_succ
  exact .of_forall fun fuel => worded fuel rest

theorem null :
  Expr.null.ReadBack
  := by
  exact of_word "null" (by decide) rfl rfl fun _ _ => by rw [worded?]

theorem this :
  Expr.this.ReadBack
  := by
  exact of_word "this" (by decide) rfl rfl fun _ _ => by rw [worded?]

theorem super :
  Expr.super.ReadBack
  := by
  exact of_word "super" (by decide) rfl rfl fun _ _ => by rw [worded?]

theorem arguments :
  Expr.arguments.ReadBack
  := by
  exact of_word "arguments" (by decide) rfl rfl fun _ _ => by rw [worded?]

theorem name {name : String} (h : isName name) :
  (Expr.name name).ReadBack
  := by
  obtain ⟨identifier, plain⟩ := isName_iff.mp h
  apply of_word name identifier rfl rfl
  intro fuel rest
  apply worded?_name
  exact fun member => plain (List.mem_append_left _ member)

theorem str (value : String) :
  (Expr.str value).ReadBack
  := by
  have quote : ∀ rest, ∃ more, (Expr.str value).text.toList ++ rest = '"' :: more := by
    intro rest
    exact ⟨value.toList.flatMap Text.quotedChar ++ '"' :: rest, by simp [Text.quoted]⟩
  refine of_atom rfl (fun rest => ?_) fun rest parts => ?_
  · obtain ⟨more, text⟩ := quote rest
    exact ⟨'"', more, text, .inr (.inl rfl)⟩
  · obtain ⟨more, text⟩ := quote rest
    have unquoted : Text.unquoted? ('"' :: more) = some (value, rest) := by
      rw [← text, Expr.text, Text.unquoted?_quoted]
    have read : ∀ fuel, atom? (fuel + 1) ('"' :: more) = some (.str value, rest) := by
      intro fuel
      rw [atom?, unquoted, Option.map_some]
    rw [text]
    apply Reads.of_succ
    exact .of_forall read

theorem member {object : Expr} {property : String} (h : object.ReadBack)
    (identifier : isIdentifier property) :
  (Expr.member object property).ReadBack
  := by
  have text : ∀ rest, (Expr.member object property).text.toList ++ rest
      = (object.operand object.text).toList ++ '.' :: (property.toList ++ rest) := by
    simp
  refine of_operand rfl (fun rest => ?_) fun rest result parts further => ?_
  · rw [text]
    exact h.operand_begins _
  rw [text]
  -- behind the object the reader comes to the dot, and goes on from the member
  apply h.operand _ _ (.cons (by decide) _)
  obtain ⟨taken, dropped⟩ := take_identifier identifier parts
  apply Reads.of_succ
  filter_upwards [further] with fuel further
  rw [further?, taken, dropped, String.ofList_toList, further]

/-- The texts of expressions are read as these up to the parenthesis behind them. -/
theorem items {es : List Expr} (h : ∀ e ∈ es, e.ReadBack) (rest : List Char) :
  Reads (items? · ((joined ", " (Expr.texts es)).toList ++ ')' :: rest)) (es, rest)
  := by
  induction es with
  | nil =>
      apply Reads.of_succ
      exact .of_forall fun _ => rfl
  | cons e es ih =>
      have first := h e List.mem_cons_self
      cases es with
      | nil => exact .items_last (first.begins _) (first.whole _ (.cons (by decide) _))
      | cons next es =>
          have text : (joined ", " (Expr.texts (e :: next :: es))).toList ++ ')' :: rest
              = e.text.toList
                ++ ',' :: ' ' :: ((joined ", " (Expr.texts (next :: es))).toList ++ ')' :: rest) := by
            simp [joined]
          rw [text]
          apply Reads.items_next (first.begins _) (first.whole _ (.cons (by decide) _))
          exact ih fun e member => h e (List.mem_cons_of_mem _ member)

theorem call {callee : Expr} {args : List Expr} (h : callee.ReadBack)
    (all : ∀ e ∈ args, e.ReadBack) :
  (Expr.call callee args).ReadBack
  := by
  have text : ∀ rest, (Expr.call callee args).text.toList ++ rest
      = (callee.operand callee.text).toList
        ++ '(' :: ((joined ", " (Expr.texts args)).toList ++ ')' :: rest) := by
    simp
  refine of_operand rfl (fun rest => ?_) fun rest result parts further => ?_
  · rw [text]
    exact h.operand_begins _
  rw [text]
  apply h.operand _ _ (.cons (by decide) _)
  apply Reads.of_succ
  filter_upwards [further, items all rest] with fuel further items
  rw [further?, items]
  exact further

theorem new {className : String} {args : List Expr} (dotted : isDottedIdentifier className)
    (all : ∀ e ∈ args, e.ReadBack) :
  (Expr.new className args).ReadBack
  := by
  have text : ∀ rest, (Expr.new className args).text.toList ++ rest
      = "new".toList ++ ' ' :: (className.toList
        ++ '(' :: ((joined ", " (Expr.texts args)).toList ++ ')' :: rest)) := by
    simp
  have word : isIdentifier "new" := by decide
  refine of_atom rfl (fun rest => ?_) fun rest parts => ?_
  · rw [text]
    exact begins_of_isIdentifier word _
  rw [text]
  exact .word word (.cons (by decide) _) (.new dotted (items all rest))

theorem sequence {es : List Expr} (several : es.length ≠ 1) (all : ∀ e ∈ es, e.ReadBack) :
  (Expr.sequence es).ReadBack
  := by
  have text : ∀ rest, (Expr.sequence es).text.toList ++ rest
      = '(' :: ((joined ", " (Expr.texts es)).toList ++ ')' :: rest) := by
    simp
  refine of_atom rfl (fun rest => ?_) fun rest parts => ?_
  · rw [text]
    exact ⟨'(', _, rfl, .inr (.inr rfl)⟩
  rw [text]
  apply Reads.of_succ
  filter_upwards [items all rest] with fuel items
  rw [atom?, items]
  simp only [Option.bind_eq_bind, Option.bind_some]
  split
  · contradiction
  · rfl

theorem assign {target : String} {value : Expr} (h : isName target) (of_value : value.ReadBack) :
  (Expr.assign target value).ReadBack
  := by
  have text : ∀ rest, (Expr.assign target value).text.toList ++ rest
      = ((Expr.name target).operand (Expr.name target).text).toList
        ++ ' ' :: '=' :: ' ' :: (value.text.toList ++ rest) := by
    simp [Expr.operand, isOpen]
  have of_target := ReadBack.name h
  refine of_whole rfl (fun rest => ?_) fun rest closes => ?_
  · rw [text]
    exact of_target.operand_begins _
  rw [text]
  exact .assign (of_target.ended (.space _)) (of_value.whole rest closes)

theorem conditional {test consequent alternate : Expr} (of_test : test.ReadBack)
    (of_consequent : consequent.ReadBack) (of_alternate : alternate.ReadBack) :
  (Expr.conditional test consequent alternate).ReadBack
  := by
  have text : ∀ rest, (Expr.conditional test consequent alternate).text.toList ++ rest
      = (test.operand test.text).toList
        ++ ' ' :: '?' :: ' ' :: ((consequent.operand consequent.text).toList
          ++ ' ' :: ':' :: ' ' :: ((alternate.operand alternate.text).toList ++ rest)) := by
    simp
  refine of_whole rfl (fun rest => ?_) fun rest closes => ?_
  · rw [text]
    exact of_test.operand_begins _
  rw [text]
  exact .conditional (of_test.ended (.space _)) (of_consequent.ended (.space _))
    (of_alternate.ended closes.ends)

theorem and {left right : Expr} (of_left : left.ReadBack) (of_right : right.ReadBack) :
  (Expr.and left right).ReadBack
  := by
  have text : ∀ rest, (Expr.and left right).text.toList ++ rest
      = (left.operand left.text).toList
        ++ ' ' :: '&' :: '&' :: ' ' :: ((right.operand right.text).toList ++ rest) := by
    simp
  refine of_whole rfl (fun rest => ?_) fun rest closes => ?_
  · rw [text]
    exact of_left.operand_begins _
  rw [text]
  exact .and (of_left.ended (.space _)) (of_right.ended closes.ends)

end Expr.ReadBack

/-! ### Statements that are read back -/

/-- The reader reads the text of the statement as the statement. -/
structure Stmt.ReadBack (s : Stmt) : Prop where
  begins : ∀ rest, Begins (s.text.toList ++ rest)
  whole : ∀ rest, Reads (stmt? · (s.text.toList ++ rest)) (s, rest)

namespace Stmt.ReadBack

theorem declare {name : String} {value : Expr} (h : isName name) (of_value : value.ReadBack) :
  (Stmt.declare name value).ReadBack
  := by
  have text : ∀ rest, (Stmt.declare name value).text.toList ++ rest
      = "var".toList ++ ' ' :: ((Expr.assign name value).text.toList ++ ';' :: rest) := by
    simp
  have word : isIdentifier "var" := by decide
  have assignment := Expr.ReadBack.assign h of_value
  refine ⟨fun rest => ?_, fun rest => ?_⟩
  · rw [text]
    exact begins_of_isIdentifier word _
  · rw [text]
    exact .declare (.introduction word (by decide) (assignment.begins _))
      (assignment.whole _ (.cons (by decide) _))

theorem result {value : Expr} (of_value : value.ReadBack) :
  (Stmt.result value).ReadBack
  := by
  have text : ∀ rest, (Stmt.result value).text.toList ++ rest
      = "return".toList ++ ' ' :: (value.text.toList ++ ';' :: rest) := by
    simp
  have word : isIdentifier "return" := by decide
  refine ⟨fun rest => ?_, fun rest => ?_⟩
  · rw [text]
    exact begins_of_isIdentifier word _
  · rw [text]
    exact .result (.introduction word (by decide) (of_value.begins _))
      (of_value.whole _ (.cons (by decide) _))

theorem evaluate {value : Expr} (of_value : value.ReadBack) :
  (Stmt.evaluate value).ReadBack
  := by
  have text : ∀ rest, (Stmt.evaluate value).text.toList ++ rest
      = value.text.toList ++ ';' :: rest := by
    simp
  refine ⟨fun rest => ?_, fun rest => ?_⟩
  · rw [text]
    exact of_value.begins _
  · rw [text]
    exact .evaluate (of_value.whole _ (.cons (by decide) _))

theorem text_cons_cons (s next : Stmt) (body : List Stmt) (rest : List Char) :
  (joined " " (Stmt.texts (s :: next :: body))).toList ++ rest
    = s.text.toList ++ ' ' :: ((joined " " (Stmt.texts (next :: body))).toList ++ rest)
  := by
  simp [joined]

theorem body_begins {s : Stmt} (h : s.ReadBack) (body : List Stmt) (rest : List Char) :
  Begins ((joined " " (Stmt.texts (s :: body))).toList ++ rest)
  := by
  cases body with
  | nil => exact h.begins rest
  | cons next body =>
      rw [text_cons_cons]
      exact h.begins _

/-- The texts of statements are read as these up to the brace behind them. -/
theorem body {body : List Stmt} (h : ∀ s ∈ body, s.ReadBack) (rest : List Char) :
  Reads (stmts? · ((joined " " (Stmt.texts body)).toList ++ ' ' :: '\x7d' :: rest)) (body, rest)
  := by
  induction body with
  | nil =>
      apply Reads.of_succ
      exact .of_forall fun _ => rfl
  | cons s body ih =>
      have first := h s List.mem_cons_self
      cases body with
      | nil => exact .stmts_last (first.begins _) (first.whole _)
      | cons next body =>
          have second := h next (List.mem_cons_of_mem _ List.mem_cons_self)
          rw [text_cons_cons]
          apply Reads.stmts_next (first.begins _) (first.whole _) (second.body_begins body _)
          exact ih fun s member => h s (List.mem_cons_of_mem _ member)

end Stmt.ReadBack

/-- Parameters are read as names. -/
theorem Expr.texts_name (params : List String) :
  Expr.texts (params.map .name) = params
  := by
  induction params with
  | nil => rfl
  | cons name params ih => rw [List.map_cons, Expr.texts, ih, Expr.text]

theorem Expr.ReadBack.function {params : List String} {body : List Stmt}
    (names : ∀ name ∈ params, isName name) (all : ∀ s ∈ body, s.ReadBack) :
  (Expr.function params body).ReadBack
  := by
  have text : ∀ rest, (Expr.function params body).text.toList ++ rest
      = "function".toList ++ '(' :: ((joined ", " (Expr.texts (params.map .name))).toList
        ++ ')' :: ' ' :: '\x7b' :: ' ' :: ((joined " " (Stmt.texts body)).toList
          ++ ' ' :: '\x7d' :: rest)) := by
    simp [Expr.texts_name]
  have word : isIdentifier "function" := by decide
  refine of_whole rfl (fun rest => ?_) fun rest closes => ?_
  · rw [text]
    exact begins_of_isIdentifier word _
  have of_params : ∀ e ∈ params.map Expr.name, e.ReadBack := by
    simpa using fun name member => ReadBack.name (names name member)
  have read := Reads.function (items of_params _) (Stmt.ReadBack.body all rest)
  have same : (params.map Expr.name).map nameOf = params := by
    simp [Function.comp_def, nameOf]
  rw [same] at read
  rw [text]
  exact (Reads.word word (.cons (by decide) _) read).whole_of_atom closes

/-! ### All readable plans are read back -/

mutual

/-- The text of a readable expression is read as this expression. -/
theorem Expr.readBack :
  (e : Expr) → e.isReadable → e.ReadBack
  | .null, _ => .null
  | .this, _ => .this
  | .super, _ => .super
  | .arguments, _ => .arguments
  | .str value, _ => .str value
  | .name _, h => .name h
  | .member object _, h => by
      obtain ⟨of_object, identifier⟩ := Bool.and_eq_true_iff.mp h
      exact .member (object.readBack of_object) identifier
  | .new _ args, h => by
      obtain ⟨dotted, of_args⟩ := Bool.and_eq_true_iff.mp h
      exact .new dotted (Expr.readBack_all args of_args)
  | .call callee args, h => by
      obtain ⟨of_callee, of_args⟩ := Bool.and_eq_true_iff.mp h
      exact .call (callee.readBack of_callee) (Expr.readBack_all args of_args)
  | .assign _ value, h => by
      obtain ⟨target, of_value⟩ := Bool.and_eq_true_iff.mp h
      exact .assign target (value.readBack of_value)
  | .sequence es, h => by
      obtain ⟨several, of_items⟩ := Bool.and_eq_true_iff.mp h
      exact .sequence (bne_iff_ne.mp several) (Expr.readBack_all es of_items)
  | .conditional test consequent alternate, h => by
      obtain ⟨front, of_alternate⟩ := Bool.and_eq_true_iff.mp h
      obtain ⟨of_test, of_consequent⟩ := Bool.and_eq_true_iff.mp front
      exact .conditional (test.readBack of_test) (consequent.readBack of_consequent)
        (alternate.readBack of_alternate)
  | .and left right, h => by
      obtain ⟨of_left, of_right⟩ := Bool.and_eq_true_iff.mp h
      exact .and (left.readBack of_left) (right.readBack of_right)
  | .function _ body, h => by
      obtain ⟨names, of_body⟩ := Bool.and_eq_true_iff.mp h
      exact .function (List.all_eq_true.mp names) (Stmt.readBack_all body of_body)

theorem Expr.readBack_all :
  (es : List Expr) → Expr.areReadable es → ∀ e ∈ es, e.ReadBack
  | [], _ => List.forall_mem_nil _
  | e :: es, h => by
      obtain ⟨first, others⟩ := Bool.and_eq_true_iff.mp h
      exact List.forall_mem_cons.mpr ⟨e.readBack first, Expr.readBack_all es others⟩

/-- The text of a readable statement is read as this statement. -/
theorem Stmt.readBack :
  (s : Stmt) → s.isReadable → s.ReadBack
  | .declare _ value, h => by
      obtain ⟨name, of_value⟩ := Bool.and_eq_true_iff.mp h
      exact .declare name (value.readBack of_value)
  | .evaluate value, h => .evaluate (value.readBack h)
  | .result value, h => .result (value.readBack h)

theorem Stmt.readBack_all :
  (body : List Stmt) → Stmt.areReadable body → ∀ s ∈ body, s.ReadBack
  | [], _ => List.forall_mem_nil _
  | s :: body, h => by
      obtain ⟨first, others⟩ := Bool.and_eq_true_iff.mp h
      exact List.forall_mem_cons.mpr ⟨s.readBack first, Stmt.readBack_all body others⟩

end

/-- Readable expressions have one text only if they are one, and so have readable statements. An
operand ends where its text ends: in front of a mark or a closing, no text is that of two operands,
with or without parentheses. -/
theorem text_injective :
  (∀ e e' : Expr, e.isReadable → e'.isReadable → (e.text = e'.text ↔ e = e'))
    ∧ (∀ s s' : Stmt, s.isReadable → s'.isReadable → (s.text = s'.text ↔ s = s'))
    ∧ (∀ (e e' : Expr) (rest rest' : List Char), e.isReadable → e'.isReadable →
        Ends rest → Ends rest' →
        ((e.operand e.text).toList ++ rest = (e'.operand e'.text).toList ++ rest'
          ↔ e = e' ∧ rest = rest'))
  := by
  refine ⟨fun e e' h h' => ⟨fun same => ?_, congrArg _⟩,
    fun s s' h h' => ⟨fun same => ?_, congrArg _⟩,
    fun e e' rest rest' h h' ends ends' => ⟨fun same => ?_, ?_⟩⟩
  · have read := (e.readBack h).whole [] .nil
    have read' := (e'.readBack h').whole [] .nil
    rw [same] at read
    exact congrArg Prod.fst (read.unique read')
  · have read := (s.readBack h).whole []
    have read' := (s'.readBack h').whole []
    rw [same] at read
    exact congrArg Prod.fst (read.unique read')
  · have read := (e.readBack h).ended ends
    have read' := (e'.readBack h').ended ends'
    rw [same] at read
    exact Prod.ext_iff.mp (read.unique read')
  · rintro ⟨rfl, rfl⟩
    rfl

/-- A conjunction is not grouped by itself, a variable is not assigned by declaring it, and a
sequence is not called as an assignment in parentheses is. -/
theorem text_injective_grouped :
  (Expr.and (.and (.name "a") (.name "b")) (.name "c")).text
      ≠ (Expr.and (.name "a") (.and (.name "b") (.name "c"))).text
    ∧ (Stmt.declare "a" .null).text ≠ (Stmt.evaluate (.assign "a" .null)).text
    ∧ ((Expr.assign "a" .null).operand (Expr.assign "a" .null).text).toList ++ [';']
      ≠ ((Expr.sequence [.name "a", .null]).operand
          (Expr.sequence [.name "a", .null]).text).toList ++ [';']
  := by
  obtain ⟨expressions, statements, operands⟩ := text_injective
  refine ⟨?_, ?_, ?_⟩
  · rw [Ne, expressions _ _ (by decide) (by decide)]
    simp
  · rw [Ne, statements _ _ (by decide) (by decide)]
    simp
  · have apart := operands (.assign "a" .null) (.sequence [.name "a", .null]) [';'] [';']
      (by decide) (by decide) (by simp [Ends]) (by simp [Ends])
    rw [Ne, apart]
    simp

/-- A sequence of one expression reads like parentheses. -/
example :
  (Expr.sequence [.and .this .this]).text = (Expr.and .this .this).operand "this && this"
  := by
  decide

end Wiring
