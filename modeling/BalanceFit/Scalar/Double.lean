import BalanceFit.Scalar

/-!
# Doubles

The instances that run a fit in double precision. Comparisons are those of doubles, so each of them
is false of NaN, and the two zeros are equal.
-/

namespace BalanceFit

instance natCastFloat : NatCast Float := ⟨Float.ofNat⟩

instance : Scalar Float where
  abs := Float.abs
  le x y := x ≤ y
  lt x y := x < y
  isZero x := x == 0
  isFinite := Float.isFinite
  nan := 0 / 0

namespace Double

/-- The logistic function. -/
def expit (x : Float) : Float := 1 / (1 + Float.exp (-x))

/-- The inverse of the logistic function. Near one half, where the quotient `x / (1 - x)` is near
one and its logarithm loses digits, the inverse hyperbolic tangent gives the same value without
loss. -/
def logit (x : Float) : Float :=
  if 0.3 < x && x < 0.65 then 2 * Float.atanh (2 * x - 1)
  else Float.log (x / (1 - x))

end Double

instance : Transcendental Float where
  exp := Float.exp
  log := Float.log
  expit := Double.expit
  logit := Double.logit

end BalanceFit
