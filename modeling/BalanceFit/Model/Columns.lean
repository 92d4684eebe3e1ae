import BalanceFit.Design
import BalanceFit.Grid.Arithmetic
import BalanceFit.Model.Family

/-!
# Coefficients in columns

The coefficients of a generalized linear model may come as a matrix with several columns, or as an
array of such matrices. Every sample then has a linear predictor for each column. The responses and
the weights are spread over the last axis of the predictors, so there are as many columns as
samples, or one of either.

## Main definitions

* `Design.predictors?` : the linear predictors
* `Family.columnBalance?`, `Family.columnJacobian` : the balance and the Jacobian, as arrays that
  may have more axes than theirs
-/

namespace BalanceFit

variable {α : Type} [Scalar α] {p : Nat}

namespace Design

/-- The matrix of the design rows. -/
def matrix (samples : List (Sample α p)) : Mat α samples.length p :=
  (Vec.ofList samples).map (·.row)

/-- The linear predictors for coefficients in columns; `none` unless the columns are as long as the
design rows. -/
def predictors? (samples : List (Sample α p)) (beta : Grid α) : Option (Grid α) :=
  beta.timesLeft? (matrix samples)

end Design

namespace Family

variable [Transcendental α]

/-- The balance of a family for the linear predictors `eta`. It has a column for each column of
residuals. -/
def columnBalance? (f : Family α) (samples : List (Sample α p)) (eta : Grid α) :
    Option (Grid α) := do
  let weight : Grid α := .ofList (samples.map (·.weight))
  let excess ← (eta.map f.mean).zipWith? (· - ·) (.ofList (samples.map (·.y)))
  let residual ← weight.zipWith? (· * ·) excess
  residual.timesLeft? (Design.matrix samples).transpose

/-- The Jacobian of a family for the linear predictors `eta`. The design rows are spread over the
curvatures, which get an axis of length one behind their first one; what comes of it is an array of
matrices. -/
def columnJacobian (f : Family α) (samples : List (Sample α p)) (eta : Grid α) :
    Except Fault (Grid α) := do
  let x := Design.matrix samples
  let weight : Grid α := .ofList (samples.map (·.weight))
  match weight.zipWith? (· * ·) (eta.map fun t => f.variance (f.mean t)) with
  | none => throw .shapeMismatch
  | some curvature =>
    match curvature.insertAxis? 1 with
    | none => throw .noSuchIndex
    | some curvature =>
      match ((Grid.ofMat x).zipWith? (· * ·) curvature).bind (·.timesLeft? x.transpose) with
      | none => throw .shapeMismatch
      | some jacobian => return jacobian

end Family

end BalanceFit
