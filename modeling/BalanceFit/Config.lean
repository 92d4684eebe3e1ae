import BalanceFit.Fault
import BalanceFit.Scalar

/-!
# Parameters of a fit

## Main definitions

* `Config α` : the strength of the ridge, three thresholds, the iteration bound, and what is
  reported
* `Config.accepted` : whether the numbers among them make sense
* `Verbosity` : how much a fit prints
-/

namespace BalanceFit

/-- How much a fit prints: a level, or a setting that no level can be compared with. -/
inductive Verbosity where
  | level (n : Int)
  | incomparable
  deriving DecidableEq, Repr

/-- Whether what is printed from level `k` on is printed. A setting that is no level gives no
answer. -/
def Verbosity.atLeast (k : Int) : Verbosity → Except Fault Bool
  | level n => .ok (k ≤ n)
  | incomparable => .error .notANumber

/-- The parameters of a fit. -/
structure Config (α : Type) where
  /-- The strength of the ridge. -/
  epsilon : α
  /-- A balance with at most this total ends the fit. -/
  balanceTol : α
  /-- A Jacobian with at most this total is degenerate. -/
  jacobianTol : α
  /-- A step with at most this total ends the fit. -/
  stepTol : α
  /-- The most evaluations of the model. -/
  maxIter : Nat
  verbosity : Verbosity
  /-- Whether the result lists all iterates. -/
  history : Bool
  deriving DecidableEq, Repr

/-- Whether a number can be a threshold: it is finite and not negative. -/
def isThreshold {α : Type} [Scalar α] (x : α) : Bool := Scalar.isFinite x && !Scalar.lt x 0

/-- Whether the numbers among the parameters make sense. The verbosity is not looked at, so what a
run with accepted parameters returns is stated by `Verbosity.atLeast` of its first report. -/
def Config.accepted {α : Type} [Scalar α] (c : Config α) : Bool :=
  isThreshold c.epsilon && isThreshold c.balanceTol && isThreshold c.jacobianTol &&
    isThreshold c.stepTol && 1 ≤ c.maxIter

end BalanceFit
