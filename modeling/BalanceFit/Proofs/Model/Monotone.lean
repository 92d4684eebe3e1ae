import Mathlib.Algebra.BigOperators.Field
import Mathlib.Algebra.BigOperators.Fin
import Mathlib.Algebra.BigOperators.Ring.List
import Mathlib.Algebra.Order.Field.Basic
import Mathlib.Algebra.Order.Ring.Abs
import Mathlib.Analysis.SpecialFunctions.Log.Basic
import Mathlib.Analysis.SpecialFunctions.Sigmoid
import Mathlib.Tactic.FieldSimp
import Mathlib.Tactic.Linarith
import Mathlib.Tactic.Positivity
import Mathlib.Tactic.Ring
import BalanceFit.Proofs.Model.Evaluation
import BalanceFit.Proofs.Model.Family
import BalanceFit.Proofs.Model.Gram
import BalanceFit.Proofs.Newton.Ending

/-!
# A small balance certifies the coefficients

With a ridge the balance of a generalized linear model increases strongly with the coefficients: the
means increase, so what the observations contribute does not decrease along any direction, and the
ridge adds a multiple of the coefficients themselves. So where the balance differs little the
coefficients differ little, too.

## Main statements

* `abs_le_div_of_strong` : a bound for each entry from a bound for the sum of magnitudes
* `Family.strong_of_weights` : the balance with a ridge increases strongly
* `GeneralizedLinear.abs_sub_le_of_balance` : so it tells coefficients apart
-/

namespace BalanceFit

/-- If the product of two vectors is at least a multiple of the square of the first one, then every
entry of the first one is bounded by the total of the second one. -/
theorem abs_le_div_of_strong {n : Nat} {d e : Fin n → ℝ} {mu bound : ℝ} (positive : 0 < mu)
    (strong : mu * ∑ i, d i ^ 2 ≤ ∑ i, e i * d i) (total : ∑ i, |e i| ≤ bound) (j : Fin n) :
    |d j| ≤ bound / mu := by
  obtain ⟨i, -, largest⟩ :=
    Finset.exists_max_image Finset.univ (fun i => |d i|) ⟨j, Finset.mem_univ j⟩
  -- The largest entry bounds the sum of squares from below, and the products from above.
  have squares : d i ^ 2 ≤ ∑ i, d i ^ 2 :=
    Finset.single_le_sum (f := fun i => d i ^ 2) (fun i _ => sq_nonneg (d i)) (Finset.mem_univ i)
  have products : ∑ i, e i * d i ≤ bound * |d i| := by
    calc
      ∑ k, e k * d k ≤ ∑ k, |e k| * |d i| := by
        refine Finset.sum_le_sum fun k _ => ?_
        calc
          e k * d k ≤ |e k| * |d k| := by
            rw [← abs_mul]
            exact le_abs_self _
          _ ≤ |e k| * |d i| :=
            mul_le_mul_of_nonneg_left (largest k (Finset.mem_univ k)) (abs_nonneg _)
      _ = (∑ k, |e k|) * |d i| := by rw [Finset.sum_mul]
      _ ≤ bound * |d i| := mul_le_mul_of_nonneg_right total (abs_nonneg _)
  have scaled : mu * |d i| * |d i| ≤ bound * |d i| := by
    calc
      mu * |d i| * |d i| = mu * d i ^ 2 := by rw [mul_assoc, abs_mul_abs_self, sq]
      _ ≤ mu * ∑ i, d i ^ 2 := mul_le_mul_of_nonneg_left squares positive.le
      _ ≤ bound * |d i| := strong.trans products
  refine (largest j (Finset.mem_univ j)).trans ((le_div_iff₀ positive).2 ?_)
  rw [mul_comm]
  rcases (abs_nonneg (d i)).eq_or_lt with zero | nonzero
  · rw [← zero, mul_zero]
    exact (Finset.sum_nonneg fun k _ => abs_nonneg (e k)).trans total
  · exact le_of_mul_le_mul_right scaled nonzero

namespace Family

variable {n : Nat} (f : Family ℝ) {samples : List (Sample ℝ n)}

/-- Along any direction, what the samples contribute to the balance does not decrease. -/
theorem sum_sub_mul_nonneg (weights : ∀ s ∈ samples, 0 ≤ s.weight) (b b' : Vec ℝ n) :
    0 ≤ ∑ j, ((f.system samples b).balance j - (f.system samples b').balance j) * (b j - b' j) := by
  have contributions (c : Vec ℝ n) : ∑ j, (f.system samples c).balance j * (b j - b' j) =
      (samples.map fun s => f.residual c s * (s.row.dot b - s.row.dot b')).sum := by
    rw [Family.system, Design.sum_moment_mul, List.map_map]
    refine congrArg List.sum (List.map_congr_left fun s _ => ?_)
    have difference : Design.product s.row (fun j => b j - b' j) = s.row.dot b - s.row.dot b' := by
      rw [Design.dot_eq_product, Design.dot_eq_product]
      exact Design.product_sub s.row (b ·) (b' ·)
    exact congrArg _ difference
  simp only [sub_mul, Finset.sum_sub_distrib]
  rw [contributions, contributions, sub_nonneg]
  refine List.sum_le_sum fun s member => ?_
  -- The means are ordered as the linear predictors are.
  have ordered : 0 ≤ (f.meanAt b s - f.meanAt b' s) * (s.row.dot b - s.row.dot b') := by
    rcases le_total (s.row.dot b) (s.row.dot b') with less | more
    · exact mul_nonneg_of_nonpos_of_nonpos (sub_nonpos.2 (f.mean_monotone less)) (sub_nonpos.2 less)
    · exact mul_nonneg (sub_nonneg.2 (f.mean_monotone more)) (sub_nonneg.2 more)
  have weighted := mul_nonneg (weights s member) ordered
  rw [residual, residual]
  linarith

/-- The balance with a ridge increases strongly. -/
theorem strong_of_weights (weights : ∀ s ∈ samples, 0 ≤ s.weight) (epsilon : ℝ) (b b' : Vec ℝ n) :
    2 * epsilon * ∑ j, (b j - b' j) ^ 2 ≤
      ∑ j, (((f.system samples b).regularize epsilon b).balance j -
        ((f.system samples b').regularize epsilon b').balance j) * (b j - b' j) := by
  have split : ∑ j, (((f.system samples b).regularize epsilon b).balance j -
        ((f.system samples b').regularize epsilon b').balance j) * (b j - b' j) =
      ∑ j, ((f.system samples b).balance j - (f.system samples b').balance j) * (b j - b' j) +
        2 * epsilon * ∑ j, (b j - b' j) ^ 2 := by
    rw [Finset.mul_sum, ← Finset.sum_add_distrib]
    refine Finset.sum_congr rfl fun j _ => ?_
    rw [System.regularize_balance_apply, System.regularize_balance_apply]
    push_cast
    ring
  rw [split]
  exact le_add_of_nonneg_left (f.sum_sub_mul_nonneg weights b b')

end Family

namespace GeneralizedLinear

variable {g : GeneralizedLinear ℝ} {f : Family ℝ} {store : Store ℝ} {n : Nat}

/-- Where the balances with a ridge are small the coefficients are close. -/
theorem abs_sub_le_of_balance (family : g.family = some f)
    (weights : ∀ o ∈ store.log, 0 ≤ o.weight) {epsilon : ℝ} (ridge : 0 < epsilon)
    {b b' : Vec ℝ n} {s s' : System ℝ n} (evaluated : g.evaluate n store (.ofVec b) = .ok s)
    (evaluated' : g.evaluate n store (.ofVec b') = .ok s') {total total' : ℝ}
    (small : (s.regularize epsilon b).balance.absTotal ≤ total)
    (small' : (s'.regularize epsilon b').balance.absTotal ≤ total') (j : Fin n) :
    |b j - b' j| ≤ (total + total') / (2 * epsilon) := by
  obtain ⟨-, rfl⟩ := (evaluate_eq_ok_iff family).1 evaluated
  obtain ⟨-, rfl⟩ := (evaluate_eq_ok_iff family).1 evaluated'
  have sampled : ∀ s ∈ store.log.map (Design.sample n g.intercept), 0 ≤ s.weight := by
    intro s member
    obtain ⟨o, inside, rfl⟩ := List.mem_map.1 member
    exact weights o inside
  refine abs_le_div_of_strong (d := fun j => b j - b' j) (by positivity)
    (f.strong_of_weights sampled epsilon b b') ?_ j
  rw [Vec.absTotal_eq_sum] at small small'
  calc
    _ ≤ _ := Finset.sum_le_sum fun j _ => abs_sub _ _
    _ = _ := Finset.sum_add_distrib
    _ ≤ total + total' := add_le_add small small'

end GeneralizedLinear

end BalanceFit
