import Mathlib.Algebra.BigOperators.Fin
import Mathlib.Algebra.Order.Field.Basic
import Mathlib.Algebra.Order.Ring.Abs
import Mathlib.LinearAlgebra.Matrix.NonsingularInverse
import Mathlib.Tactic.NormNum
import Mathlib.Tactic.Ring
import BalanceFit.Proofs.Model.Evaluation
import BalanceFit.Proofs.Model.Family
import BalanceFit.Proofs.Newton.Affine

/-!
# Least squares with a ridge takes one step

The balance of a linear model is affine: with the design matrix `X`, the diagonal matrix `W` of the
weights and the responses `y`, it is `M b - Xᵀ W y` at `b`, where `M = Xᵀ W X + 2 ε` is the Jacobian
everywhere. So Newton's method reaches the ridge solution in its first step, from anywhere and for
weights of any sign.

## Main definitions

* `Store.designMatrix`, `Store.weights`, `Store.responses` : a store as the data of a least-squares
  problem
* `Store.ridgeMatrix`, `Store.ridgeSide` : its normal equations with a ridge

## Main statements

* `Family.isAffine_linear` : the balance of a linear model is affine
* `GeneralizedLinear.newton_reaches_ridge_solution` : the iteration takes one step to the solution
-/

namespace BalanceFit

open Matrix

namespace Store

variable {K : Type} [Field K] (s : Store K) (n : Nat) (intercept : Bool)

/-- The design rows of all observations, one below the other. -/
def designMatrix : Matrix (Fin s.log.length) (Fin n) K :=
  Matrix.of fun i j => Design.row n intercept s.log[i].x j

/-- The weights of all observations. -/
def weights : Fin s.log.length → K := fun i => s.log[i].weight

/-- The responses of all observations. -/
def responses : Fin s.log.length → K := fun i => s.log[i].y

/-- The matrix `Xᵀ W X + 2 ε`. -/
def ridgeMatrix (epsilon : K) : Matrix (Fin n) (Fin n) K :=
  (s.designMatrix n intercept)ᵀ * diagonal s.weights * s.designMatrix n intercept +
    (2 * epsilon) • (1 : Matrix (Fin n) (Fin n) K)

/-- The vector `Xᵀ W y`. -/
def ridgeSide : Fin n → K :=
  ((s.designMatrix n intercept)ᵀ * diagonal s.weights) *ᵥ s.responses

/-- The entries of `Xᵀ W X + 2 ε` are sums over the observations. -/
theorem ridgeMatrix_apply (epsilon : K) (i j : Fin n) :
    s.ridgeMatrix n intercept epsilon i j =
      (s.log.map fun o =>
        Design.row n intercept o.x i * o.weight * Design.row n intercept o.x j).sum +
        if i = j then 2 * epsilon else 0 := by
  rw [ridgeMatrix, Matrix.add_apply, Matrix.mul_apply, Matrix.smul_apply, Matrix.one_apply,
    smul_eq_mul, mul_ite, mul_one, mul_zero, ← Fin.sum_univ_fun_getElem]
  simp only [mul_diagonal, transpose_apply]
  rfl

/-- The entries of `Xᵀ W y` are sums over the observations. -/
theorem ridgeSide_apply (i : Fin n) :
    s.ridgeSide n intercept i =
      (s.log.map fun o => Design.row n intercept o.x i * o.weight * o.y).sum := by
  rw [ridgeSide, mulVec, dotProduct, ← Fin.sum_univ_fun_getElem]
  simp only [mul_diagonal, transpose_apply]
  rfl

end Store

variable {K : Type} [Field K] [LinearOrder K] [Transcendental K] {n : Nat}

namespace Family

variable (s : Store K) (n : Nat) (intercept : Bool) (epsilon : K) (b : Vec K n)

/-- The Jacobian of a linear model with a ridge. -/
theorem toMatrix_linear :
    ((linear.system (s.log.map (Design.sample n intercept)) b).regularize
      epsilon b).jacobian.toMatrix = s.ridgeMatrix n intercept epsilon := by
  ext i j
  have sums : (linear.system (s.log.map (Design.sample n intercept)) b).jacobian i j =
      (s.log.map fun o =>
        Design.row n intercept o.x i * o.weight * Design.row n intercept o.x j).sum := by
    rw [system, Design.gram_apply, Design.total_eq_sum, List.map_map, List.map_map]
    refine congrArg List.sum (List.map_congr_left fun o _ => ?_)
    change Design.row n intercept o.x i * (Design.row n intercept o.x j * (o.weight * 1)) = _
    ring
  rw [Mat.toMatrix_apply, System.regularize_jacobian_apply, Store.ridgeMatrix_apply, sums,
    Nat.cast_ofNat]
  split
  · rfl
  · rw [add_zero]

/-- The balance of a linear model with a ridge is affine. -/
theorem isAffine_linear :
    Newton.IsAffine
      (fun b => (linear.system (s.log.map (Design.sample n intercept)) b).regularize epsilon b)
      (s.ridgeMatrix n intercept epsilon) (s.ridgeSide n intercept) := by
  refine ⟨toMatrix_linear s n intercept epsilon, fun b i => ?_⟩
  -- Without the ridge the Jacobian takes `b` to the balance at `b` and `Xᵀ W y` together.
  have responses :
      (linear.system (s.log.map (Design.sample n intercept)) b).jacobian.mulVec (b ·) i =
      s.ridgeSide n intercept i +
        (linear.system (s.log.map (Design.sample n intercept)) b).balance i := by
    rw [system, Design.mulVec_gram, Design.moment_apply, Design.moment_apply, Store.ridgeSide_apply,
      Design.total_eq_sum, Design.total_eq_sum, List.map_map, List.map_map, List.map_map,
      List.map_map, List.map_map, ← List.sum_map_add]
    refine congrArg List.sum (List.map_congr_left fun o _ => ?_)
    change Design.row n intercept o.x i *
        (o.weight * 1 * Design.product (Design.row n intercept o.x) (b ·)) =
      Design.row n intercept o.x i * o.weight * o.y + Design.row n intercept o.x i *
        (o.weight * ((Design.row n intercept o.x).dot b - o.y))
    rw [Vec.dot_eq_sum, Design.product]
    ring
  rw [← toMatrix_linear s n intercept epsilon b, Mat.mulVec_toMatrix, System.mulVec_regularize,
    System.regularize_balance_apply, responses]
  push_cast
  ring

end Family

namespace GeneralizedLinear

variable [IsStrictOrderedRing K] {σ : Type} {g : GeneralizedLinear K} {store : Store K}
  {config : Config K} {p : Nat} {observer : Option (Observer σ K)}

/-- **A linear model takes one step to the ridge solution.** If the ridge matrix is regular and
large enough to be scaled there is a single solution, which does not depend on the start. From a
start that is in balance no step is taken; from any other one the first step leads to the solution,
where the balance is zero. So two evaluations are always enough. -/
theorem newton_reaches_ridge_solution (family : g.family = some .linear)
    (columns : store.ledger.columns? = some p) (accepted : config.accepted = true)
    (regular : (store.ridgeMatrix (g.dim p) g.intercept config.epsilon).det ≠ 0)
    (large : config.jacobianTol <
      ∑ i, ∑ j, |store.ridgeMatrix (g.dim p) g.intercept config.epsilon i j|)
    (passive : ∀ o ∈ observer, o.Passive) :
    ∃ b : Vec K (g.dim p),
      (∀ c, store.ridgeMatrix (g.dim p) g.intercept config.epsilon *ᵥ c =
        store.ridgeSide (g.dim p) g.intercept ↔ c = (b ·)) ∧
      ∀ (start : Vec K (g.dim p)) (u : σ), ∃ r,
        (Run.start u (newton g.model.lift store config observer start)).1 =
          ((config.verbosity.atLeast 1).map fun _ => r) ∧
        (∑ i, |(store.ridgeMatrix (g.dim p) g.intercept config.epsilon *ᵥ (start ·)) i -
            store.ridgeSide (g.dim p) g.intercept i| ≤ config.balanceTol →
          r.outcome = .converged ∧ r.beta = start ∧ r.iterations = 1 ∧
            r.history = if config.history then some [start] else none) ∧
        (config.balanceTol <
            ∑ i, |(store.ridgeMatrix (g.dim p) g.intercept config.epsilon *ᵥ (start ·)) i -
              store.ridgeSide (g.dim p) g.intercept i| →
          r.beta = b ∧ r.history = if config.history then some [start, b] else none) ∧
        (2 ≤ config.maxIter → r.outcome = .converged ∧ r.iterations ≤ 2) ∧
        (r.iterations = 2 → r.absBalance = 0) ∧
        (config.maxIter = 1 → r.outcome = .converged ∨ r.outcome = .exhausted ∧ r.beta = b) := by
  have affine := Family.isAffine_linear store (g.dim p) g.intercept config.epsilon
  obtain ⟨b, root⟩ := Newton.IsAffine.exists_root regular (store.ridgeSide (g.dim p) g.intercept)
  refine ⟨b, root, fun start u => ⟨_, Newton.start_newton_of_finite accepted
    (computes family ⟨p, columns, rfl⟩) passive start.isFinite_eq_true u, ?_⟩⟩
  have first := affine.ideal_one root accepted regular large start
  have zero := affine.absTotal_balance_root root
  rw [affine.firstStop_eq root accepted regular large, affine.absTotal_balance]
  split
  case isTrue balanced =>
    exact ⟨fun _ => ⟨rfl, rfl, rfl, rfl⟩, fun above => absurd balanced above.not_ge,
      fun _ => ⟨rfl, one_le_two⟩, nofun, fun _ => .inl rfl⟩
  case isFalse unbalanced =>
    -- All that remains follows a step.
    have history := affine.history_stoppedAt_one root accepted regular large start
    split
    case isTrue short =>
      exact ⟨fun below => absurd below unbalanced, fun _ => ⟨first, history _ _⟩,
        fun _ => ⟨rfl, one_le_two⟩, nofun, fun _ => .inl rfl⟩
    case isFalse long =>
      split
      case isTrue single =>
        exact ⟨fun below => absurd below unbalanced, fun _ => ⟨first, history _ _⟩,
          fun several => absurd several (by omega), nofun, fun _ => .inr ⟨rfl, first⟩⟩
      case isFalse several =>
        refine ⟨fun below => absurd below unbalanced, fun _ => ⟨first, history _ _⟩,
          fun _ => ⟨rfl, le_rfl⟩, fun _ => ?_, fun single => absurd single several⟩
        rw [Newton.stoppedAt, first]
        exact zero

/-- With an intercept, weights of both signs and a ridge, the step from zero leads to the
solution. -/
theorem newton_reaches_ridge_solution_signed :
    let g : GeneralizedLinear ℝ := ⟨some .linear, true⟩
    let store : Store ℝ := ((Store.empty none : Store ℝ).push ⟨[1], 3, 1⟩ (by decide)
      (fun _ known => by cases known)).push
      ⟨[2], 1, -1⟩ (by decide) (fun _ known => by cases known; rfl)
    let config : Config ℝ := ⟨1 / 2, 0, 0, 0, 2, .level 0, true⟩
    let start : Vec ℝ 2 := .replicate 2 0
    let solution : Vec ℝ 2 := .ofFn ![-1, 1]
    ∃ r, (Run.start () (newton g.model.lift store config none start)).1 = .ok r ∧
      r.outcome = .converged ∧ r.beta = solution ∧ r.history = some [start, solution] := by
  intro g store config start solution
  have matrix : store.ridgeMatrix 2 true (1 / 2) = !![-2, -1; -1, 1] := by
    ext i j
    rw [Store.ridgeMatrix_apply]
    fin_cases i <;> fin_cases j <;> norm_num [store, Design.row]
  have side : store.ridgeSide 2 true = ![1, 2] := by
    ext i
    rw [Store.ridgeSide_apply]
    fin_cases i <;> norm_num [store, Design.row]
  have accepted : config.accepted = true := by
    simp only [Config.accepted, config, Bool.and_eq_true, Scalar.isThreshold_iff, decide_eq_true_eq]
    norm_num
  have regular : (store.ridgeMatrix 2 true (1 / 2)).det ≠ 0 := by
    rw [matrix, det_fin_two_of]
    norm_num
  have large : 0 < ∑ i, ∑ j, |store.ridgeMatrix 2 true (1 / 2) i j| := by
    rw [matrix]
    norm_num [Fin.sum_univ_two]
  have family : g.family = some .linear := rfl
  have columns : store.ledger.columns? = some 1 := rfl
  have passive : ∀ o ∈ (none : Option (Observer Unit ℝ)), o.Passive := Observer.passive_of_none
  obtain ⟨b, root, runs⟩ :=
    newton_reaches_ridge_solution family columns accepted regular large passive
  have solves : (solution ·) = (b ·) := by
    refine (root _).1 ?_
    have entries : (solution ·) = ![-1, 1] := funext (Vec.ofFn_apply _)
    change store.ridgeMatrix 2 true (1 / 2) *ᵥ (solution ·) = store.ridgeSide 2 true
    rw [matrix, side, entries]
    ext i
    fin_cases i <;> norm_num [mulVec, dotProduct, Fin.sum_univ_two]
  have same : b = solution := Vec.ext fun i => (congrFun solves i).symm
  have unbalanced : config.balanceTol <
      ∑ i, |(store.ridgeMatrix 2 true (1 / 2) *ᵥ (start ·)) i - store.ridgeSide 2 true i| := by
    have entries : (start ·) = (0 : Fin 2 → ℝ) := funext fun i => Vec.replicate_apply 0 i
    rw [matrix, side, entries, mulVec_zero]
    norm_num [config, Fin.sum_univ_two]
  obtain ⟨r, returned, -, stepped, converged, -, -⟩ := runs start ()
  obtain ⟨beta, history⟩ := stepped unbalanced
  exact ⟨r, returned, (converged le_rfl).1, same ▸ beta, same ▸ history⟩

end GeneralizedLinear

end BalanceFit
