import Wiring.Expr.Text

/-!
# Trails

The objects and providers under construction, from the innermost one outwards to the request that
started it all.
-/

namespace Wiring

/-- A step of resolution. -/
inductive Step where
  | request
  | ofClass (name : String)
  | ofProvider (key : String)
deriving DecidableEq, Repr, Inhabited

/-- The text of a step. -/
def Step.text : Step → String
  | request => "<request>"
  | ofClass name => name
  | ofProvider key => key ++ "()"

/-- The steps in progress, the innermost one first. The request below them all is left out. -/
abbrev Trail := List Step

namespace Trail

/-- The innermost step. -/
def step (trail : Trail) : Step :=
  trail.headD .request

/-- The trail before its innermost step. -/
def previous? : Trail → Option Trail
  | [] => none
  | _ :: outer => some outer

/-- The step is in progress. -/
def contains (trail : Trail) (step : Step) : Bool :=
  step = .request || step ∈ trail

/-- The steps from a step in progress down to the same step again, outermost first; all steps down
to it if it is not in progress. -/
def cycle (trail : Trail) (step : Step) : List Step :=
  let inner := trail.takeWhile (· ≠ .request)
  let between := inner.takeWhile (· ≠ step)
  let outer := if step ∈ inner then [step] else []
  outer ++ between.reverse ++ [step]

/-- The text of the cycle that a step closes. -/
def cycleText (trail : Trail) (step : Step) : String :=
  joined " -> " ((trail.cycle step).map Step.text)

end Trail

end Wiring
