/-!
# The numbers a fit computes with

A fit needs ring operations, division, comparisons that answer with a `Bool`, a test for finiteness,
and a value that stands for "no number". The algorithms are written once over the class `Scalar`. A
program runs them in doubles (`BalanceFit.Scalar.Double`), where a comparison with NaN is false; an
ordered field gives the same algorithms in exact arithmetic, where every number is finite.

## Main definitions

* `Scalar` : the arithmetic itself
* `Transcendental` : the functions that the generalized linear models take from outside
-/

namespace BalanceFit

/-- The arithmetic of a fit. -/
class Scalar (α : Type) extends Zero α, One α, Add α, Sub α, Mul α, Div α, NatCast α where
  /-- The magnitude of a number. -/
  abs : α → α
  /-- Whether the first number is at most the second. -/
  le : α → α → Bool
  /-- Whether the first number is less than the second. -/
  lt : α → α → Bool
  /-- Whether a number is zero. -/
  isZero : α → Bool
  /-- Whether a value is a number, and not an infinity. -/
  isFinite : α → Bool
  /-- The value of a computation that has no number as its result. -/
  nan : α

/-- The functions behind the logistic and the Poisson model. -/
class Transcendental (α : Type) where
  exp : α → α
  log : α → α
  /-- The logistic function, `1 / (1 + exp (-x))`. -/
  expit : α → α
  /-- The inverse of the logistic function, `log (x / (1 - x))`. -/
  logit : α → α

end BalanceFit
