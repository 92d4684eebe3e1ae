import Mathlib.Algebra.BigOperators.Field
import Mathlib.Algebra.BigOperators.Fin
import Mathlib.Algebra.BigOperators.Ring.List
import Mathlib.Algebra.Order.Field.Basic
import Mathlib.Algebra.Order.Ring.Abs
import Mathlib.Analysis.SpecialFunctions.Log.Basic
import Mathlib.Analysis.SpecialFunctions.Sigmoid
import Mathlib.Tactic.FieldSimp
import Mathlib.Tactic.Linarith
import Mathlib.Tactic.Positivity
import Mathlib.Tactic.Ring
import BalanceFit.Proofs.Model.Monotone
import BalanceFit.Proofs.Newton.Ending

/-!
# Convergence in balance certifies the coefficients

Two iterations over the same observations may begin anywhere, and differ in all parameters but the
ridge and the tolerance of the balance. If both of them end because they find a system in balance,
then their coefficients are close to each other, and to any coefficients at which the balance is
zero.

## Main definitions

* `GeneralizedLinear.FoundInBalance` : some iteration ends at these coefficients in balance

## Main statements

* `GeneralizedLinear.foundInBalance_iff` : this says that the balance there is within the tolerance
* `GeneralizedLinear.close_of_foundInBalance` : coefficients that are found in balance are close
-/

namespace BalanceFit.GeneralizedLinear

variable {g : GeneralizedLinear ℝ} {f : Family ℝ} {store : Store ℝ} {epsilon tol : ℝ} {n : Nat}
  {b : Vec ℝ n}

/-- With this ridge and this tolerance of the balance, some iteration, whose observer only looks,
converges to the coefficients within the tolerance. (After a short step it would be above it.) -/
def FoundInBalance (g : GeneralizedLinear ℝ) (store : Store ℝ) (epsilon tol : ℝ) (b : Vec ℝ n) :
    Prop :=
  ∃ (σ : Type) (observer : Option (Observer σ ℝ)) (config : Config ℝ) (u : σ) (start : Vec ℝ n)
    (r : FitResult (Vec ℝ n) ℝ),
    config.epsilon = epsilon ∧ config.balanceTol = tol ∧ (∀ o ∈ observer, o.LooksOnly) ∧
      (Run.start u (newton g.model.lift store config observer start)).1 = .ok r ∧
        r.outcome = .converged ∧ r.absBalance ≤ tol ∧ r.beta = b

/-- Coefficients are found in balance exactly if the balance there is within the tolerance. -/
theorem foundInBalance_iff (family : g.family = some f) :
    g.FoundInBalance store epsilon tol b ↔
      ∃ s, g.evaluate n store (.ofVec b) = .ok s ∧
        (s.regularize epsilon b).balance.absTotal ≤ tol := by
  constructor
  · rintro ⟨σ, observer, config, u, start, r, rfl, rfl, looks, started, converged, within, rfl⟩
    obtain ⟨w', returned⟩ := Run.start_eq_ok_iff.1 started
    obtain ⟨t, u₁, u₂, ran, balanced⟩ :=
      Newton.balance_of_converged looks returned converged within
    exact ⟨t, evaluate_eq_of_run ran, balanced⟩
  · rintro ⟨s, evaluated, balanced⟩
    obtain ⟨fits, rfl⟩ := (evaluate_eq_ok_iff family).1 evaluated
    -- An iteration that begins there ends at once.
    let config : Config ℝ := ⟨epsilon, tol, 0, 0, 1, .level 0, false⟩
    let p := Newton.Progress.start false b
    let s := (f.system (store.log.map (Design.sample n g.intercept)) b).regularize epsilon b
    let r := (p.evaluated b s.balance.absTotal).result .converged
    have stops : Newton.assess config s = .ok (.stop .converged) :=
      Newton.assess_of_balanced balanced
    have passive (o : Observer Unit ℝ) (member : o ∈ none) : o.Passive :=
      absurd member (Option.not_mem_none o)
    refine ⟨Unit, none, config, (), b, r, rfl, rfl, ?_, ?_, rfl, balanced, rfl⟩
    · exact fun o member => Observer.Passive.looksOnly (passive o member)
    · rw [newton, if_pos b.isFinite_eq_true]
      exact Run.start_eq_ok_iff.2
        (Newton.exists_iterate_of_stop rfl (computes family fits) passive 0 p stops _)

/-- **Convergence in balance certifies the coefficients.** Over observations none of which has
negative weight, coefficients that are found in balance have the same length and differ by at most
`tol / epsilon` in every entry, and they differ by half of that from coefficients at which the
balance is zero. -/
theorem close_of_foundInBalance (family : g.family = some f)
    (weights : ∀ o ∈ store.log, 0 ≤ o.weight) (ridge : 0 < epsilon)
    (found : g.FoundInBalance store epsilon tol b) :
    (∀ {m : Nat} {b' : Vec ℝ m}, g.FoundInBalance store epsilon tol b' →
      ∃ same : n = m, ∀ j, |b j - b' (j.cast same)| ≤ tol / epsilon) ∧
    ∀ (z : Vec ℝ n) s, g.evaluate n store (.ofVec z) = .ok s →
      (∀ j, (s.regularize epsilon z).balance j = 0) → ∀ j, |b j - z j| ≤ tol / (2 * epsilon) := by
  obtain ⟨s, evaluated, balanced⟩ := (foundInBalance_iff family).1 found
  constructor
  · intro m b' found'
    obtain ⟨s', evaluated', balanced'⟩ := (foundInBalance_iff family).1 found'
    obtain ⟨⟨p, columns, size⟩, -⟩ := (evaluate_eq_ok_iff family).1 evaluated
    obtain ⟨⟨p', columns', size'⟩, -⟩ := (evaluate_eq_ok_iff family).1 evaluated'
    obtain rfl : p = p' := Option.some.inj (columns.symm.trans columns')
    obtain rfl : n = m := size.trans size'.symm
    refine ⟨rfl, fun j => ?_⟩
    -- Both balances are within the tolerance, which cancels the two of the ridge.
    have close := abs_sub_le_of_balance family weights ridge evaluated evaluated' balanced balanced' j
    rwa [← two_mul, mul_div_mul_left _ _ two_ne_zero] at close
  · intro z t evaluated' zero j
    have balanced' : (t.regularize epsilon z).balance.absTotal ≤ 0 := by
      rw [Vec.absTotal_eq_sum]
      exact (Finset.sum_eq_zero fun i _ => abs_eq_zero.2 (zero i)).le
    have close := abs_sub_le_of_balance family weights ridge evaluated evaluated' balanced balanced' j
    rwa [add_zero] at close

/-- Least squares for a response of zero, with a ridge: the balance at `c` is `3 * c`, so a
tolerance of one admits both `1 / 4` and the solution, which is zero. -/
theorem close_of_foundInBalance_single :
    let g : GeneralizedLinear ℝ := ⟨some .linear, false⟩
    let store : Store ℝ := (Store.empty none).push ⟨[1], 0, 1⟩ (by decide) nofun
    let b (c : ℝ) : Vec ℝ 1 := .replicate 1 c
    g.FoundInBalance store 1 1 (b (1 / 4)) ∧ g.FoundInBalance store 1 1 (b 0) ∧
      (∃ same : 1 = 1, ∀ j, |b (1 / 4) j - b 0 (j.cast same)| ≤ 1 / 1) ∧
        ∀ j, |b (1 / 4) j - b 0 j| ≤ 1 / (2 * 1) := by
  intro g store b
  let o : Observation ℝ := ⟨[1], 0, 1⟩
  have log : store.log = [o] := rfl
  have weights : ∀ o ∈ store.log, 0 ≤ o.weight := by
    intro o' member
    rw [log, List.mem_singleton] at member
    rw [member]
    exact zero_le_one
  let system (c : ℝ) := Family.linear.system [Design.sample 1 false o] (b c)
  have evaluated (c : ℝ) : g.evaluate 1 store (.ofVec (b c)) = .ok (system c) :=
    (evaluate_eq_ok_iff rfl).2 ⟨⟨1, rfl, rfl⟩, rfl⟩
  have balance (c : ℝ) (j : Fin 1) : ((system c).regularize 1 (b c)).balance j = 3 * c := by
    obtain rfl := Subsingleton.elim j 0
    simp [system, b, o, Family.system, Family.residual, Family.meanAt, Family.mean, Design.total,
      Design.sample, Design.row, Vec.dot_eq_sum]
    ring
  have found (c : ℝ) (small : |3 * c| ≤ 1) : g.FoundInBalance store 1 1 (b c) := by
    refine (foundInBalance_iff rfl).2 ⟨system c, evaluated c, ?_⟩
    rw [Vec.absTotal_eq_sum, Fin.sum_univ_one, balance]
    exact small
  have quarter := found (1 / 4) (by norm_num [abs_le])
  have zero := found 0 (by norm_num)
  obtain ⟨close, exact_zero⟩ := close_of_foundInBalance rfl weights one_pos quarter
  refine ⟨quarter, zero, close zero, exact_zero (b 0) (system 0) (evaluated 0) fun j => ?_⟩
  rw [balance, mul_zero]

end BalanceFit.GeneralizedLinear
