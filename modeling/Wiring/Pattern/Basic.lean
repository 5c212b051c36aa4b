import Wiring.CharSet.Basic

/-!
# Patterns

A pattern says which stretches of a text it spans. It is built over leaves that span one character
each; as it is written, a leaf is a set of characters.
-/

namespace Wiring

/-- A pattern over leaves of a type. -/
inductive Pattern (σ : Type) where
  /-- Spans nothing, anywhere. -/
  | empty
  /-- Spans nothing, at the start of the text. -/
  | start
  /-- Spans nothing, at the end of the text. -/
  | stop
  /-- Spans one character. -/
  | leaf (set : σ)
  | sequence (first second : Pattern σ)
  | either (left right : Pattern σ)
  /-- Spans one stretch or more, one after the other. -/
  | oneOrMore (item : Pattern σ)
  /-- Spans `count` stretches, one after the other. -/
  | times (item : Pattern σ) (count : Nat)
deriving DecidableEq, Repr

namespace Pattern

/-- The pattern of one character. -/
def literal (c : Char) : Pattern CharSet :=
  .leaf (.single c)

/-- The pattern with other leaves. -/
def map {σ τ : Type} (f : σ → τ) : Pattern σ → Pattern τ
  | .empty => .empty
  | .start => .start
  | .stop => .stop
  | .leaf set => .leaf (f set)
  | .sequence first second => .sequence (first.map f) (second.map f)
  | .either left right => .either (left.map f) (right.map f)
  | .oneOrMore item => .oneOrMore (item.map f)
  | .times item count => .times (item.map f) count

variable {σ : Type}

/-- A pattern or nothing. -/
def optional (p : Pattern σ) : Pattern σ :=
  .either p .empty

/-- A pattern any number of times. -/
def many (p : Pattern σ) : Pattern σ :=
  .optional (.oneOrMore p)

/-- A pattern `least` times or more. -/
def atLeast (p : Pattern σ) : Nat → Pattern σ
  | 0 => p.many
  | 1 => .oneOrMore p
  | least + 2 => .sequence (.times p (least + 1)) (.oneOrMore p)

/-- A pattern `least` times and up to `more` times beyond that. -/
def between (p : Pattern σ) : Nat → Nat → Pattern σ
  | least, 0 => .times p least
  | 0, more => .times p.optional more
  | least, more => .sequence (.times p least) (.times p.optional more)

/-- The patterns one after the other. -/
def all : List (Pattern σ) → Pattern σ
  | [] => .empty
  | p :: rest => .sequence p (all rest)

end Pattern

end Wiring
