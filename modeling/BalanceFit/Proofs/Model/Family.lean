import Mathlib.Algebra.BigOperators.Fin
import Mathlib.Algebra.Order.Field.Basic
import Mathlib.Analysis.SpecialFunctions.Log.Basic
import Mathlib.Analysis.SpecialFunctions.Sigmoid
import BalanceFit.Model.GeneralizedLinear
import BalanceFit.Proofs.Scalar.Field

/-!
# Families over the real numbers

In every family the mean increases with the linear predictor, and the variance is positive at every
mean that there is.

## Main statements

* `Family.mean_monotone` : the means increase
* `Family.variance_pos` : the variances are positive
* `Family.curvature_nonneg`, `Family.curvature_eq_zero_iff` : so a sample contributes to the
  Jacobian as far as its weight is not zero
-/

namespace BalanceFit

/-- The exact functions. -/
noncomputable instance : Transcendental ℝ where
  exp := Real.exp
  log := Real.log
  expit := Real.sigmoid
  logit x := Real.log (x / (1 - x))

namespace Family

theorem mean_monotone (f : Family ℝ) : Monotone f.mean := by
  cases f with
  | linear => exact monotone_id
  | logistic clip => exact Real.sigmoid_monotone
  | poisson => exact Real.exp_monotone

theorem variance_pos (f : Family ℝ) (eta : ℝ) : 0 < f.variance (f.mean eta) := by
  cases f with
  | linear => exact one_pos
  | logistic clip =>
    exact mul_pos (Real.sigmoid_pos eta) (sub_pos.2 (Real.sigmoid_lt_one eta))
  | poisson => exact Real.exp_pos eta

variable {p : Nat} (f : Family ℝ) (beta : Vec ℝ p) {s : Sample ℝ p}

theorem curvature_nonneg (weight : 0 ≤ s.weight) : 0 ≤ f.curvature beta s :=
  mul_nonneg weight (f.variance_pos _).le

theorem curvature_eq_zero_iff : f.curvature beta s = 0 ↔ s.weight = 0 := by
  rw [curvature, meanAt, mul_eq_zero, or_iff_left (f.variance_pos _).ne']

end Family

end BalanceFit
