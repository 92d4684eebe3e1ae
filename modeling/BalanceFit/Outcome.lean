import BalanceFit.Divergence
import BalanceFit.Fault

/-!
# How an iteration ends

## Main definitions

* `Ending`, `Outcome` : the ways to end, without and with the reason of a divergence
* `Outcome.ofEnding` : the outcome that ends in some way
* `Summary` : the outcome together with the figures that a message about it mentions
-/

namespace BalanceFit

/-- The ways for an iteration to end, apart from why it diverged. -/
inductive Ending where
  | ended
  | converged
  | diverged
  | exhausted
  deriving DecidableEq, Repr

namespace Ending

/-- All ways to end. -/
def all : List Ending := [ended, converged, diverged, exhausted]

/-- The name of the type of results that end in some way. -/
def typeName : Ending → String
  | ended => "FitResult"
  | converged => "Converged"
  | diverged => "Diverged"
  | exhausted => "MaxIterationsExceeded"

/-- The way to end of the results whose type has a name. -/
def ofTypeName? (s : String) : Option Ending := all.find? fun e => e.typeName == s

end Ending

/-- How an iteration ended. -/
inductive Outcome where
  /-- The iteration ended, and nothing more is known. -/
  | ended
  /-- The balance or the step came within its tolerance. -/
  | converged
  /-- A numeric breakdown ended the iteration. -/
  | diverged (reason : Divergence)
  /-- The iteration bound was reached first. -/
  | exhausted
  deriving DecidableEq, Repr

namespace Outcome

/-- The way in which an outcome ends. -/
def ending : Outcome → Ending
  | ended => .ended
  | converged => .converged
  | diverged _ => .diverged
  | exhausted => .exhausted

/-- The name of the type of results with this outcome. -/
def typeName (o : Outcome) : String := o.ending.typeName

/-- The outcome that ends in some way. Exactly a divergence has a reason. -/
def ofEnding : Ending → Option Divergence → Except Fault Outcome
  | .ended, none => .ok ended
  | .converged, none => .ok converged
  | .diverged, some reason => .ok (diverged reason)
  | .exhausted, none => .ok exhausted
  | _, _ => .error .misfitField

/-- Whether the coefficients can be trusted. -/
def success : Outcome → Bool
  | converged => true
  | _ => false

end Outcome

/-- What a message about a result mentions, where `N` is the form in which a count is given. -/
structure Summary (α : Type) (N : Type := Nat) where
  outcome : Outcome
  iterations : N
  absBalance : α
  deriving DecidableEq, Repr

/-- The message about a result, where `magnitude` writes a total and `count` a count. -/
def Summary.text {α N : Type} (magnitude : α → String) (count : N → String) (s : Summary α N) :
    String :=
  let n := count s.iterations
  let figure := "|balance|=" ++ magnitude s.absBalance
  match s.outcome with
  | .ended => "Stopped after " ++ n ++ " iterations: " ++ figure
  | .converged => "Converged after " ++ n ++ " iterations: " ++ figure
  | .diverged reason => "Diverged after " ++ n ++ " iterations: " ++ reason.text
  | .exhausted => "Did not converge in " ++ n ++ " iterations: " ++ figure

end BalanceFit
