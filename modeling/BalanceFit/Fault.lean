/-!
# Faults

A fault ends an operation without a result. Numeric breakdowns of an iteration are not faults: a fit
reports them in its result (`BalanceFit.Divergence`).

## Main definitions

* `Fault` : the causes
* `Fault.message?` : the wording of those that come with one
-/

namespace BalanceFit

/-- What can keep an operation from having a result. -/
inductive Fault where
  /-- A number is needed where a value is none. -/
  | notANumber
  /-- A text does not read as a number. -/
  | unreadableText
  /-- A value that is no number meets an array of numbers in a computation. -/
  | notAnOperand
  /-- A whole number is beyond the largest double. -/
  | tooLarge
  /-- A nested list is no array: its rows differ in length or in depth, or it is too deep. -/
  | ragged
  /-- Arrays whose shapes do not fit each other. -/
  | shapeMismatch
  /-- An array has more entries than there is memory for. -/
  | outOfMemory
  /-- There are more axes in front of matrices than are spread over each other. -/
  | tooManyAxes
  /-- An index outside a collection. -/
  | noSuchIndex
  /-- An array that is only for reading is written to. -/
  | readOnly
  /-- A field of a value that cannot change is set. -/
  | frozen
  /-- A field that a value does not have is asked for or given. -/
  | unknownField
  /-- A field that a value needs is not given, or one that it has no room for is. -/
  | misfitField
  /-- A name that denotes nothing. -/
  | unknownName
  /-- Nothing is kept under the name that something is looked up by. -/
  | noSuchEntry
  /-- The quotient of a number and an exact zero. -/
  | divisionByZero
  /-- A predictor length below one. -/
  | badWidth (shown : String)
  /-- A predictor that is no vector with an entry. -/
  | notAVector (shape : List Nat)
  /-- A predictor whose length differs from that of its collection. -/
  | wrongLength (length : Nat) (expected : String)
  /-- Predictors, responses and weights in different numbers. -/
  | unevenCounts (predictors responses weights : Nat)
  /-- An iteration bound that is no whole number. -/
  | boundNotWhole (shown : String)
  /-- An iteration bound below one. -/
  | boundNotPositive (shown : String)
  /-- A threshold that is negative or not finite. -/
  | badThreshold (name shown : String)
  /-- A fit without observations. -/
  | nothingToFit
  /-- A least-squares problem without observations. -/
  | nothingToSolve
  /-- A model, given by the name of its type, that lacks a capability. -/
  | incompleteModel (name : String)
  /-- A capability that a model lacks is used. -/
  | noCapability
  /-- A generalized linear model whose mean is left open is evaluated. -/
  | openMean
  /-- A solve that reports success but holds no solution. -/
  | noSolution
  /-- A model gives up, in its own words. -/
  | gaveUp (words : String)
  /-- An observer of the iteration stops it. -/
  | stopped (word : String)
  deriving DecidableEq, Repr

namespace Fault

/-- A shape as it is written: its lengths in round brackets, a single one followed by a comma. -/
def shapeText : List Nat → String
  | [n] => s!"({n},)"
  | ns => "(" ++ ", ".intercalate (ns.map toString) ++ ")"

/-- The wording of a fault; those of the number system and of arrays have none. -/
def message? : Fault → Option String
  | badWidth shown => some s!"n_features must be positive, got {shown}"
  | notAVector shape => some ("x must be a non-empty 1-D vector, got shape " ++ shapeText shape)
  | wrongLength length expected =>
    some s!"x has length {length}, expected {expected} to match earlier observations"
  | unevenCounts predictors responses weights =>
    some ("X, y and weights disagree on the number of observations: " ++
      s!"{predictors}, {responses}, {weights}")
  | boundNotWhole shown => some s!"max_iter must be an integer, got {shown}"
  | boundNotPositive shown => some s!"max_iter must be positive, got {shown}"
  | badThreshold name shown => some s!"{name} must be finite and non-negative, got {shown}"
  | nothingToFit => some "solve() requires at least one observation"
  | nothingToSolve => some "cannot solve with no observations"
  | incompleteModel name =>
    some s!"model must implement dim, heuristic_link and balance_and_jacobian, got {name}"
  | openMean => some ""
  | gaveUp words => some words
  | stopped word => some s!"'{word}'"
  | _ => none

end Fault

end BalanceFit
