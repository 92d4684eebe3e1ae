import BalanceFit.Design
import BalanceFit.LeastSquares
import BalanceFit.System

/-!
# Weighted linear least squares

The coefficients that minimize `∑ w * (x · beta - y)²` solve the normal equations `Xᵀ W X beta = Xᵀ
W y`. Of several solutions the one of least norm is taken. Where the equations hold NaN or an
infinity there is no solution to speak of, and every coefficient is NaN.

## Main definitions

* `NormalEquations.ofSamples` : the equations
* `NormalEquations.solution` : the coefficients
* `Store.leastSquares` : the coefficients for a store
-/

namespace BalanceFit

variable {α : Type} [Scalar α]

/-- The normal equations of a least-squares problem. -/
structure NormalEquations (α : Type) (p : Nat) where
  matrix : Mat α p p
  side : Vec α p
  deriving DecidableEq

namespace NormalEquations

variable {p : Nat}

/-- The normal equations for samples. -/
def ofSamples (samples : List (Sample α p)) : NormalEquations α p where
  matrix := Design.gram (samples.map fun s => (s.row, s.weight))
  side := Design.moment (samples.map fun s => (s.row, s.weight * s.y))

/-- Whether the equations hold finite numbers only. -/
def isFinite (e : NormalEquations α p) : Bool := e.matrix.isFinite && e.side.isFinite

/-- The solution of least norm, or NaN everywhere. -/
def solution [LeastSquares α] (e : NormalEquations α p) : Vec α p :=
  if e.isFinite then (LeastSquares.minNorm? e.matrix e.side).getD (Vec.replicate p Scalar.nan)
  else Vec.replicate p Scalar.nan

end NormalEquations

/-- The least-squares coefficients for the observations of a store, as many as the predictors are
long. -/
def Store.leastSquares [LeastSquares α] (s : Store α) : Except Fault (List α) := do
  if s.log.isEmpty then throw .nothingToSolve
  let v ← s.views
  return (NormalEquations.ofSamples (v.samples v.columns false)).solution.toList

end BalanceFit
