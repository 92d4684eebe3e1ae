import Mathlib.Algebra.BigOperators.Field
import Mathlib.Algebra.BigOperators.Fin
import Mathlib.Algebra.Order.Field.Basic
import Mathlib.Algebra.Order.Ring.Abs
import Mathlib.Tactic.Ring
import BalanceFit.Proofs.Newton.Agreement
import BalanceFit.Proofs.System.Scaling

/-!
# The unit of balances and Jacobians

Suppose that all balances and Jacobians are multiplied by a positive number, and so are the ridge
and the thresholds for their totals. Then Newton's sequence is the same and stops at the same place,
for the same reason: the solve divides the systems by the totals of their Jacobians, and every other
test compares numbers of which both have the factor in them. Only the total of the balance in the
result has another unit.

## Main definitions

* `Config.rescaled` : the parameters in another unit
* `FitResult.rescaled` : the result in another unit

## Main statements

* `System.scaledSolve_apply` : a common factor of both sides makes no difference to a step
* `Newton.stop?_rescaled` : nor to the tests
* `Newton.firstStop_rescaled` : so the result is the same in another unit
-/

namespace BalanceFit

/-- The result in another unit, `c` of which make one of the old. -/
def FitResult.rescaled {V K : Type} [Mul K] (c : K) (r : FitResult V K) : FitResult V K :=
  { r with absBalance := r.absBalance * c }

/-- The parameters in another unit, `c` of which make one of the old. The threshold for steps has
the unit of the coefficients, and stays as it is. -/
def Config.rescaled {K : Type} [Mul K] (c : K) (config : Config K) : Config K :=
  { config with
    epsilon := config.epsilon * c
    balanceTol := config.balanceTol * c
    jacobianTol := config.jacobianTol * c }

variable {K : Type} [Field K] [LinearOrder K] {n : Nat}

/-- The ridge has the unit of the system. -/
theorem System.regularize_apply (c : K) (epsilon : K) (beta : Vec K n) (s : System K n) :
    ((Scaling.mk c).apply s).regularize (epsilon * c) beta =
      (Scaling.mk c).apply (s.regularize epsilon beta) := by
  have balance : (((Scaling.mk c).apply s).regularize (epsilon * c) beta).balance =
      ((Scaling.mk c).apply (s.regularize epsilon beta)).balance := by
    ext i
    simp only [regularize_balance_apply, Scaling.apply_balance_apply]
    ring
  have jacobian : (((Scaling.mk c).apply s).regularize (epsilon * c) beta).jacobian =
      ((Scaling.mk c).apply (s.regularize epsilon beta)).jacobian := by
    ext i j
    simp only [regularize_jacobian_apply, Scaling.apply_jacobian_apply]
    split
    · ring
    · rfl
  exact congrArg₂ System.mk balance jacobian

variable [IsStrictOrderedRing K] {c : K}

/-- A common factor of both sides makes no difference to a step: the system is divided by the total
of its Jacobian, which has the factor in it. -/
theorem System.scaledSolve_apply (positive : 0 < c) (s : System K n) :
    ((Scaling.mk c).apply s).scaledSolve = s.scaledSolve := by
  rw [scaledSolve, scaledSolve, Scaling.apply_quotient positive]

theorem Config.accepted_rescaled {config : Config K} (nonneg : 0 ≤ c)
    (accepted : config.accepted = true) : (config.rescaled c).accepted = true := by
  simp only [Config.accepted, Bool.and_eq_true, Scalar.isThreshold_iff] at accepted ⊢
  obtain ⟨⟨⟨⟨ridge, balance⟩, jacobian⟩, rest⟩, bound⟩ := accepted
  exact ⟨⟨⟨⟨mul_nonneg ridge nonneg, mul_nonneg balance nonneg⟩, mul_nonneg jacobian nonneg⟩, rest⟩,
    bound⟩

namespace Newton

variable {config : Config K}

/-- The tests compare numbers of the same unit. -/
theorem stop?_rescaled (positive : 0 < c) (s : System K n) :
    stop? (config.rescaled c) ((Scaling.mk c).apply s) = stop? config s := by
  have compared (x y : K) : Scalar.le (x * c) (y * c) = Scalar.le x y :=
    decide_eq_decide.2 (mul_le_mul_iff_left₀ positive)
  simp only [stop?, Config.rescaled, Vec.absTotal_apply positive.le, Mat.absTotal_apply positive.le,
    compared, System.scaledSolve_apply positive, Scalar.isFinite_eq_true]
  rfl

variable {system : Vec K n → System K n} {start : Vec K n}

/-- Newton's sequence has no unit. -/
theorem ideal_rescaled (positive : 0 < c) (k : Nat) :
    ideal (fun b => (Scaling.mk c).apply (system b)) start k = ideal system start k := by
  induction k with
  | zero => rfl
  | succ k ih => rw [ideal, ideal, ih, System.scaledSolve_apply positive]

theorem stoppedAt_rescaled (positive : 0 < c) (outcome : Outcome) (i steps : Nat) :
    stoppedAt (config.rescaled c) (fun b => (Scaling.mk c).apply (system b)) start outcome i steps =
      (stoppedAt config system start outcome i steps).rescaled c := by
  have sequence : ideal (fun b => (Scaling.mk c).apply (system b)) start = ideal system start :=
    funext (ideal_rescaled positive)
  rw [stoppedAt, stoppedAt, sequence, Vec.absTotal_apply positive.le]
  rfl

/-- **The first stop is the same in every unit.** -/
theorem firstStop_rescaled (positive : 0 < c) :
    firstStop (config.rescaled c) (fun b => (Scaling.mk c).apply (system b)) start =
      (firstStop config system start).rescaled c := by
  -- Along the sequence the tests say the same, so both searches end at the same iterate.
  have tests (k : Nat) : stop? (config.rescaled c) ((Scaling.mk c).apply
      (system (ideal (fun b => (Scaling.mk c).apply (system b)) start k))) =
        stop? config (system (ideal system start k)) := by
    rw [ideal_rescaled positive, stop?_rescaled positive]
  rcases firstStop_cases config system start with ⟨k, outcome, steps, bound, going, stops⟩ | going
  · rw [firstStop_of_stop bound going stops, ← stoppedAt_rescaled positive]
    exact firstStop_of_stop bound (fun i before => (tests i).trans (going i before))
      ((tests k).trans stops)
  · rw [firstStop_of_forall_none going, ← stoppedAt_rescaled positive]
    exact firstStop_of_forall_none fun i before => (tests i).trans (going i before)

end Newton

end BalanceFit
