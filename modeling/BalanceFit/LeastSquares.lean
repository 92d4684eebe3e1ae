import BalanceFit.Vec

/-!
# Square systems in the sense of least squares

A singular system need not have a solution, and has many if it has one. Where a single answer is
wanted all the same, it is the vector of least norm among those that come closest to solving the
system.

## Main definitions

* `LeastSquares` : the arithmetics that can find it
-/

namespace BalanceFit

/-- An arithmetic with a procedure for square systems in the sense of least squares. -/
class LeastSquares (α : Type) where
  /-- Of the vectors `x` that bring `a * x` closest to `b`, the one of least norm. A numeric
  procedure may fail to find it. -/
  minNorm? : {n : Nat} → Mat α n n → Vec α n → Option (Vec α n)

end BalanceFit
