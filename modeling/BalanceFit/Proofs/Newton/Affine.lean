import Mathlib.LinearAlgebra.Matrix.NonsingularInverse
import BalanceFit.Proofs.Newton.Agreement
import BalanceFit.Proofs.Newton.Ending
import BalanceFit.Proofs.System.Solved

/-!
# Newton's method on affine balances

If the balance is affine, with one regular matrix as its Jacobian everywhere, then the step from any
iterate leads to the only vector at which the balance is zero. So the iteration takes one step at
most, and stops at the first evaluation after it.

## Main definitions

* `Newton.IsAffine` : the balance is a matrix times the coefficients less a vector

## Main statements

* `Newton.solves_of_step` : what is known of a system that asks for a step
* `Newton.IsAffine.exists_root` : a regular matrix has a single root
* `Newton.IsAffine.sub_eq_root` : the step from any vector leads there
* `Newton.IsAffine.firstStop_eq` : what the iteration returns, in the four ways in which it can end
-/

namespace BalanceFit.Newton

open Matrix

variable {K : Type} [Field K] [LinearOrder K] {n : Nat}

/-- If a system asks for a step, it is out of balance, and its Jacobian is regular and large enough
to be scaled; and the step solves it. -/
theorem solves_of_step [IsStrictOrderedRing K] {config : Config K} {s : System K n}
    {delta : Vec K n} (assessed : assess config s = .ok (.step delta)) :
    config.balanceTol < s.balance.absTotal ∧ config.jacobianTol < s.jacobian.absTotal ∧
      ¬ s.jacobian.IsSingular ∧ ∀ i, s.jacobian.mulVec delta i = s.balance i := by
  cases assessed_of_assess assessed with
  | solved _ above scaled solved =>
    have nonempty : 0 < n := by
      rcases Nat.eq_zero_or_pos n with rfl | positive
      · cases solved
      · exact positive
    have regular : ¬ s.jacobian.IsSingular := by
      obtain ⟨r, solved', ⟨-, regular⟩ | ⟨failed, -⟩⟩ :=
        System.exists_newtonStep_apply nonempty scaled
      · exact regular
      · rw [solved] at solved'
        obtain rfl := Except.ok.inj solved'
        cases failed
    rw [System.newtonStep_apply (Scaling.factor_ne_zero scaled)] at solved
    exact ⟨not_le.1 (mt Scalar.le_iff.2 above), Scaling.lt_of_ofJacobian?_eq_some scaled, regular,
      System.mulVec_of_newtonStep solved⟩

/-- At every vector the Jacobian is the matrix `m`, and the balance is `m` times the vector less
`v`. -/
structure IsAffine (system : Vec K n → System K n) (m : Matrix (Fin n) (Fin n) K) (v : Fin n → K) :
    Prop where
  jacobian : ∀ b, (system b).jacobian.toMatrix = m
  balance : ∀ b i, (system b).balance i = (m *ᵥ (b ·)) i - v i

namespace IsAffine

variable {system : Vec K n → System K n} {m : Matrix (Fin n) (Fin n) K} {v : Fin n → K}
  {b start : Vec K n} {config : Config K}

/-- If the matrix is regular there is a single vector that it takes to `v`. -/
theorem exists_root (regular : m.det ≠ 0) (v : Fin n → K) :
    ∃ b : Vec K n, ∀ c : Fin n → K, m *ᵥ c = v ↔ c = (b ·) := by
  have unit : IsUnit m.det := isUnit_iff_ne_zero.2 regular
  refine ⟨.ofFn (m⁻¹ *ᵥ v), fun c => ?_⟩
  simp only [Vec.ofFn_apply]
  constructor
  · rintro rfl
    rw [mulVec_mulVec, nonsing_inv_mul m unit, one_mulVec]
  · rintro rfl
    rw [mulVec_mulVec, mul_nonsing_inv m unit, one_mulVec]

theorem absTotal_jacobian (affine : IsAffine system m v) (start : Vec K n) :
    (system start).jacobian.absTotal = ∑ i, ∑ j, |m i j| := by
  rw [Mat.absTotal_eq_sum, ← affine.jacobian start]
  rfl

theorem absTotal_balance (affine : IsAffine system m v) (start : Vec K n) :
    (system start).balance.absTotal = ∑ i, |(m *ᵥ (start ·)) i - v i| := by
  rw [Vec.absTotal_eq_sum]
  exact Finset.sum_congr rfl fun i _ => by rw [affine.balance]

variable [IsStrictOrderedRing K]

/-- The step from any vector leads to the root. -/
theorem sub_eq_root (affine : IsAffine system m v) (root : ∀ c : Fin n → K, m *ᵥ c = v ↔ c = (b ·))
    (total : (system start).jacobian.absTotal ≠ 0) {delta : Vec K n}
    (solved : (system start).scaledSolve.solution = some delta) :
    Vec.zipWith (· - ·) start delta = b := by
  have step : m *ᵥ (delta ·) = m *ᵥ (start ·) - v := by
    funext i
    rw [Pi.sub_apply, ← affine.balance, ← System.mulVec_of_scaledSolve total solved,
      ← affine.jacobian start, Mat.mulVec_toMatrix]
  have reached : (fun i => start i - delta i) = (b ·) := by
    rw [← root]
    change m *ᵥ ((start ·) - (delta ·)) = v
    rw [mulVec_sub, step, sub_sub_cancel]
  ext i
  rw [Vec.zipWith_apply]
  exact congrFun reached i

/-- At the root the balance is zero, which is within every tolerance. -/
theorem absTotal_balance_root (affine : IsAffine system m v)
    (root : ∀ c : Fin n → K, m *ᵥ c = v ↔ c = (b ·)) : (system b).balance.absTotal = 0 := by
  rw [affine.absTotal_balance, (root (b ·)).2 rfl]
  simp only [sub_self, abs_zero, Finset.sum_const_zero]

section Stops

variable (affine : IsAffine system m v) (root : ∀ c : Fin n → K, m *ᵥ c = v ↔ c = (b ·))
  (accepted : config.accepted = true)

include affine root accepted

/-- So the iteration stops at the root. -/
theorem stop?_root : stop? config (system b) = some (.converged, 0) := by
  have zero := affine.absTotal_balance_root root
  have within : Scalar.le (system b).balance.absTotal config.balanceTol = true :=
    Scalar.LawfulZero.le_of_isZero (Scalar.isZero_iff.2 zero)
      (Config.isThreshold_balanceTol accepted)
  rw [stop?, within]
  rfl

variable (regular : m.det ≠ 0) (large : config.jacobianTol < ∑ i, ∑ j, |m i j|) (start : Vec K n)

include regular large

/-- There is a step from any vector, which is its difference from the root. -/
theorem scaledSolve_eq :
    (system start).scaledSolve = ⟨some (Vec.zipWith (· - ·) start b), none⟩ := by
  have tolerance : 0 ≤ config.jacobianTol :=
    Scalar.isThreshold_iff.1 (Config.isThreshold_jacobianTol accepted)
  have total : (system start).jacobian.absTotal ≠ 0 := by
    rw [affine.absTotal_jacobian]
    exact (tolerance.trans_lt large).ne'
  have solvable : ¬ (system start).jacobian.IsSingular := by
    rw [Mat.isSingular_iff_det_eq_zero, affine.jacobian]
    exact regular
  obtain ⟨delta, solved⟩ := System.exists_scaledSolve total solvable
  have reached := affine.sub_eq_root root total (congrArg LinearSolve.solution solved)
  rw [solved, ← reached]
  congr 2
  ext i
  simp only [Vec.zipWith_apply, sub_sub_cancel]

theorem ideal_one : ideal system start 1 = b := by
  simp only [ideal, affine.scaledSolve_eq root accepted regular large start]
  ext i
  simp only [Vec.zipWith_apply, sub_sub_cancel]

/-- After one step the history is the start and the root, if it is kept. -/
theorem history_stoppedAt_one (outcome : Outcome) (i : Nat) :
    (stoppedAt config system start outcome i 1).history =
      if config.history then some [start, b] else none := by
  rw [← affine.ideal_one root accepted regular large start]
  rfl

/-- At any vector the iteration stops in balance, or else after a short step, or else it goes on. -/
theorem stop?_eq :
    stop? config (system start) =
      if (system start).balance.absTotal ≤ config.balanceTol then some (.converged, 0)
      else if (Vec.zipWith (· - ·) start b).absTotal ≤ config.stepTol then some (.converged, 1)
      else none := by
  have above : ¬ (system start).jacobian.absTotal ≤ config.jacobianTol := by
    rw [affine.absTotal_jacobian]
    exact not_le.2 large
  rw [stop?, affine.scaledSolve_eq root accepted regular large start]
  simp only [Scalar.isFinite_eq_true, Bool.not_true, Bool.false_or, Bool.false_eq_true, if_false,
    Scalar.le_iff, above]

/-- **What the iteration returns**: the start, if it is in balance; otherwise the root, after one
evaluation if the step there is short or no other evaluation is allowed, and after two if not. -/
theorem firstStop_eq :
    firstStop config system start =
      if (system start).balance.absTotal ≤ config.balanceTol then
        stoppedAt config system start .converged 0 0
      else if (Vec.zipWith (· - ·) start b).absTotal ≤ config.stepTol then
        stoppedAt config system start .converged 0 1
      else if config.maxIter = 1 then stoppedAt config system start .exhausted 0 1
      else stoppedAt config system start .converged 1 1 := by
  have positive := Config.one_le_maxIter accepted
  have first := affine.stop?_eq root accepted regular large start
  have none_before (i : Nat) (before : i < 0) :
      stop? config (system (ideal system start i)) = none :=
    absurd before (Nat.not_lt_zero i)
  split
  case isTrue balanced =>
    rw [if_pos balanced] at first
    exact firstStop_of_stop (k := 0) positive none_before first
  case isFalse unbalanced =>
    rw [if_neg unbalanced] at first
    split
    case isTrue short =>
      rw [if_pos short] at first
      exact firstStop_of_stop (k := 0) positive none_before first
    case isFalse long =>
      rw [if_neg long] at first
      have going (i : Nat) (before : i < 1) :
          stop? config (system (ideal system start i)) = none := by
        rw [Nat.lt_one_iff.1 before]
        exact first
      split
      case isTrue single =>
        rw [firstStop_of_forall_none fun i before => going i (single ▸ before), single]
      case isFalse several =>
        have second : stop? config (system (ideal system start 1)) = some (.converged, 0) := by
          rw [affine.ideal_one root accepted regular large]
          exact affine.stop?_root root accepted
        exact firstStop_of_stop (k := 1) (by omega) going second

/-- Out of balance there is a step to the root, -/
theorem assess_eq (unbalanced : config.balanceTol < (system start).balance.absTotal) :
    assess config (system start) = .ok (.step (Vec.zipWith (· - ·) start b)) := by
  have tests := affine.stop?_eq root accepted regular large start
  rw [if_neg (not_le.2 unbalanced)] at tests
  rcases assess_cases accepted (system start) with
    ⟨outcome, stops, -⟩ | ⟨delta, solution, assessed, -⟩
  · rw [stops] at tests
    split at tests <;> cases tests
  · rw [affine.scaledSolve_eq root accepted regular large start] at solution
    rw [assessed, ← Option.some.inj solution]

/-- and that is where the iteration ends. -/
theorem beta_firstStop (unbalanced : config.balanceTol < (system start).balance.absTotal) :
    (firstStop config system start).beta = b := by
  have first := affine.ideal_one root accepted regular large start
  rw [affine.firstStop_eq root accepted regular large, if_neg (not_le.2 unbalanced)]
  split
  · exact first
  · split <;> exact first

end Stops

end IsAffine

end BalanceFit.Newton
