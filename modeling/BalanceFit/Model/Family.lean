import BalanceFit.Scalar

/-!
# Families of generalized linear models

A family gives the mean of a response as a function of the linear predictor, and the variance as a
function of the mean; the variance is also the derivative of the mean. The link is the inverse of
the mean, extended to all responses.

## Main definitions

* `Family α` : the families
* `Family.mean`, `Family.variance`, `Family.link` : the functions
-/

namespace BalanceFit

/-- The families of generalized linear models. -/
inductive Family (α : Type) where
  /-- Least squares. -/
  | linear
  /-- Logistic regression. The link takes responses only from `clip` to `1 - clip`. -/
  | logistic (clip : α)
  /-- Poisson regression. -/
  | poisson
  deriving DecidableEq, Repr

namespace Family

variable {α : Type}

/-- The name of the type of models of a family. -/
def modelName : Family α → String
  | linear => "LinearModel"
  | logistic _ => "LogisticModel"
  | poisson => "PoissonModel"

variable [Scalar α]

/-- The clip of logistic regression if none is given. -/
def defaultClip : α := 1 / (100 : Nat)

/-- The least response that the link of Poisson regression takes. -/
def leastCount : α := 1 / (2 : Nat)

/-- The larger of two numbers; NaN if one of them is NaN. -/
def larger (x y : α) : α :=
  if Scalar.lt x y then y else if Scalar.le y x then x else Scalar.nan

/-- The smaller of two numbers; NaN if one of them is NaN. -/
def smaller (x y : α) : α :=
  if Scalar.lt y x then y else if Scalar.le x y then x else Scalar.nan

/-- The mean at a linear predictor. -/
def mean [Transcendental α] : Family α → α → α
  | linear, eta => eta
  | logistic _, eta => Transcendental.expit eta
  | poisson, eta => Transcendental.exp eta

/-- The variance at a mean. -/
def variance : Family α → α → α
  | linear, _ => 1
  | logistic _, mu => mu * (1 - mu)
  | poisson, mu => mu

/-- The linear predictor that goes with a response. -/
def link [Transcendental α] : Family α → α → α
  | linear, y => y
  | logistic clip, y => Transcendental.logit (smaller (larger y clip) (1 - clip))
  | poisson, y => Transcendental.log (if Scalar.lt y leastCount then leastCount else y)

end Family

end BalanceFit
