import Mathlib.Algebra.BigOperators.Field
import Mathlib.Algebra.BigOperators.Fin
import Mathlib.Algebra.BigOperators.Ring.List
import Mathlib.Algebra.Order.Field.Basic
import Mathlib.Algebra.Order.Ring.Abs
import Mathlib.Analysis.SpecialFunctions.Log.Basic
import Mathlib.Analysis.SpecialFunctions.Sigmoid
import Mathlib.LinearAlgebra.Matrix.PosDef
import Mathlib.Tactic.FieldSimp
import Mathlib.Tactic.Linarith
import Mathlib.Tactic.Positivity
import Mathlib.Tactic.Ring
import BalanceFit.Fitter
import BalanceFit.Newton.Start
import BalanceFit.Proofs.Model.Evaluation
import BalanceFit.Proofs.Model.Family
import BalanceFit.Proofs.Model.Gram
import BalanceFit.Proofs.Newton.Ending

/-!
# When the system of a generalized linear model is singular

The Jacobian of a generalized linear model is a sum of outer products of design rows, whose
coefficients are not negative if no weight is. So with a ridge it is positive semidefinite, and it
is singular only without a ridge, and if the observations that count leave some direction open. With
a ridge it is never singular, and its total is not small either.

## Main definitions

* `GeneralizedLinear.curvatures` : the rows and the coefficients of that sum
* `GeneralizedLinear.IsOpenDirection` : the directions that the observations leave open

## Main statements

* `GeneralizedLinear.isSingular_iff` : when the Jacobian with a ridge is singular
* `GeneralizedLinear.posSemidef` : it is positive semidefinite
* `GeneralizedLinear.outcome_newton_ne`, `GeneralizedLinear.outcome_solve_ne` : with a ridge no run
  gives up on a Jacobian
* `GeneralizedLinear.singular_iff_open_direction` : all of this together
-/

namespace BalanceFit

namespace GeneralizedLinear

variable {g : GeneralizedLinear ℝ} {f : Family ℝ} {store : Store ℝ} {n : Nat} {beta : Vec ℝ n}
  {s : System ℝ n} {epsilon : ℝ}

/-- The rows and the curvatures of the observations of a store. -/
noncomputable def curvatures (g : GeneralizedLinear ℝ) (f : Family ℝ) (store : Store ℝ)
    (beta : Vec ℝ n) : List (Vec ℝ n × ℝ) :=
  store.log.map fun o =>
    (Design.row n g.intercept o.x, f.curvature beta (Design.sample n g.intercept o))

/-- A vector that is orthogonal to the design row of every observation of positive weight. -/
def IsOpenDirection (g : GeneralizedLinear ℝ) (store : Store ℝ) (v : Fin n → ℝ) : Prop :=
  ∀ o ∈ store.log, 0 < o.weight → ∑ j, Design.row n g.intercept o.x j * v j = 0

section Jacobian

variable (family : g.family = some f) (weights : ∀ o ∈ store.log, 0 ≤ o.weight)
  (evaluated : g.evaluate n store (.ofVec beta) = .ok s)

include family evaluated in
theorem jacobian_eq_gram : s.jacobian = Design.gram (g.curvatures f store beta) := by
  obtain ⟨-, rfl⟩ := (evaluate_eq_ok_iff family).1 evaluated
  change Design.gram (List.map _ (List.map _ store.log)) = _
  rw [List.map_map]
  rfl

include weights in
theorem curvatures_nonneg : ∀ t ∈ g.curvatures f store beta, 0 ≤ t.2 := by
  intro t member
  obtain ⟨o, inside, rfl⟩ := List.mem_map.1 member
  exact f.curvature_nonneg beta (weights o inside)

include weights in
/-- The directions in which the Jacobian has no curvature are those that the observations of
positive weight leave open. -/
theorem isOpenDirection_iff (v : Fin n → ℝ) :
    (∀ t ∈ g.curvatures f store beta, t.2 * Design.product t.1 v = 0) ↔
      g.IsOpenDirection store v := by
  rw [curvatures, List.forall_mem_map]
  refine forall₂_congr fun o member => ?_
  rw [mul_eq_zero, f.curvature_eq_zero_iff, or_iff_not_imp_left]
  have counts : ¬ o.weight = 0 ↔ 0 < o.weight := by
    rw [lt_iff_le_and_ne, and_iff_right (weights o member), ne_comm]
  exact imp_congr_left counts

include family weights evaluated in
theorem isSingular_iff (ridge : 0 ≤ epsilon) :
    (s.regularize epsilon beta).jacobian.IsSingular ↔
      epsilon = 0 ∧ ∃ v : Fin n → ℝ, v ≠ 0 ∧ g.IsOpenDirection store v := by
  rw [Design.isSingular_regularize_iff (jacobian_eq_gram family evaluated)
    (curvatures_nonneg weights) ridge]
  simp only [isOpenDirection_iff weights]

include family weights evaluated in
theorem posSemidef (ridge : 0 ≤ epsilon) :
    (Matrix.of fun i j => (s.regularize epsilon beta).jacobian i j).PosSemidef := by
  have gram := jacobian_eq_gram family evaluated
  refine .of_dotProduct_mulVec_nonneg ?_ fun v => ?_
  · ext i j
    rw [Matrix.conjTranspose_apply, star_trivial, Matrix.of_apply, Matrix.of_apply,
      System.regularize_jacobian_apply, System.regularize_jacobian_apply, gram]
    by_cases diagonal : i = j
    · rw [diagonal]
    · rw [if_neg (Ne.symm diagonal), if_neg diagonal, Design.gram_symm]
  · change 0 ≤ (s.regularize epsilon beta).jacobian.form v
    rw [System.form_regularize, gram]
    have curvature : 0 ≤ (Design.gram (g.curvatures f store beta)).form v :=
      Design.form_gram_nonneg (curvatures_nonneg weights) v
    positivity

end Jacobian

section Runs

open Run

variable {σ : Type} {config : Config ℝ} {observer : Option (Observer σ ℝ)} {w w' : World σ ℝ}
  (family : g.family = some f) (weights : ∀ o ∈ store.log, 0 ≤ o.weight)
  (ridge : 0 < config.epsilon) {o : Observation ℝ} (member : o ∈ store.log)
  (tolerance : config.jacobianTol < 2 * config.epsilon * g.dim o.x.length)

include family weights ridge member tolerance

/-- With a ridge the Jacobian is never to blame for the end of an iteration, whatever an observer
does to the coefficients and the balance. -/
theorem outcome_newton_ne {start : Vec ℝ n} {r : FitResult (Vec ℝ n) ℝ}
    (returned : Returns (newton g.model.lift store config observer start) w r w') :
    r.outcome ≠ .diverged .degenerateJacobian ∧ r.outcome ≠ .diverged .singularSystem := by
  cases Newton.ended_of_newton returned with
  | exhausted outcome =>
    rw [outcome]
    exact ⟨nofun, nofun⟩
  | unstarted outcome =>
    rw [outcome]
    exact ⟨nofun, nofun⟩
  | shortStep _ _ outcome _ =>
    rw [outcome]
    exact ⟨nofun, nofun⟩
  | @stopped _ b s _ _ visited assessed total =>
    -- Whatever the observer exchanged, the Jacobian is that of the model with the ridge.
    obtain ⟨t, u, visited⟩ := Newton.exists_visited visited
    have evaluated : g.evaluate n store (.ofVec b) = .ok t := evaluate_eq_of_run visited.ran
    obtain ⟨⟨p, columns, size⟩, -⟩ := (evaluate_eq_ok_iff family).1 evaluated
    rw [Store.columns?_of_mem member, Option.some.injEq] at columns
    rw [columns, ← size] at tolerance
    have above : 2 * config.epsilon * n ≤ s.jacobian.absTotal := by
      rw [visited.jacobian]
      exact Design.mul_le_absTotal (jacobian_eq_gram family evaluated) (curvatures_nonneg weights) b
    have regular : ¬ s.jacobian.IsSingular := by
      rw [visited.jacobian, isSingular_iff family weights evaluated ridge.le]
      exact fun singular => ridge.ne' singular.1
    rcases Newton.verdict_cases assessed with
      ⟨verdict, -⟩ | ⟨-, small⟩ | ⟨-, singular⟩ | ⟨delta, verdict, -⟩
    · rw [(Newton.Verdict.stop.inj verdict : r.outcome = .converged)]
      exact ⟨nofun, nofun⟩
    · exact absurd (above.trans small) (not_le.2 tolerance)
    · exact absurd singular regular
    · exact nomatch verdict

/-- The same for starting coefficients of any shape: an iteration that returns began with a vector.
-/
theorem outcome_fromGrid_ne {start : Grid ℝ} {r : FitResult (Grid ℝ) ℝ}
    (returned : Returns (Newton.fromGrid g.model.lift store config observer start) w r w') :
    r.outcome ≠ .diverged .degenerateJacobian ∧ r.outcome ≠ .diverged .singularSystem := by
  have finite : start.entries.all Scalar.isFinite = true :=
    List.all_eq_true.2 fun x _ => Scalar.isFinite_eq_true x
  simp only [Newton.fromGrid, finite, Bool.not_true, Bool.false_eq_true, if_false] at returned
  split at returned
  case h_1 =>
    obtain ⟨r', iterated, rfl⟩ := returns_map_iff.1 returned
    exact outcome_newton_ne family weights ridge member tolerance iterated
  case h_2 b _ _ _ =>
    -- The model fails at a single value, so nothing is returned.
    obtain ⟨r', iterated, rfl⟩ := returns_map_iff.1 returned
    rw [Newton.fromValue, returns_bind_iff] at iterated
    obtain ⟨⟨beta, s⟩, w₁, visited, -⟩ := iterated
    obtain ⟨t, u, visited⟩ := Newton.exists_visited visited
    exact absurd (Prod.mk.inj visited.ran).1 (evaluate_single_ne_ok _ t)
  case h_3 =>
    obtain ⟨_, w₁, -, failed⟩ := returns_bind_iff.1 returned
    exact absurd failed not_returns_throw

/-- The same for a fit with a warm start. -/
theorem outcome_solve_ne [LeastSquares ℝ] {r : FitResult (List ℝ) ℝ}
    (returned : Returns (Fitter.solve ⟨g.model.lift, config, store⟩ observer) w r w') :
    r.outcome ≠ .diverged .degenerateJacobian ∧ r.outcome ≠ .diverged .singularSystem := by
  -- Of the parts of a fit only the iteration has a say in the outcome.
  obtain ⟨_, w₁, -, returned⟩ := returns_bind_iff.1 returned
  obtain ⟨start, w₂, -, returned⟩ := returns_bind_iff.1 returned
  obtain ⟨_, w₃, -, returned⟩ := returns_bind_iff.1 returned
  obtain ⟨r', w₄, iterated, returned⟩ := returns_bind_iff.1 returned
  obtain ⟨_, w₅, -, returned⟩ := returns_bind_iff.1 returned
  obtain ⟨_, w₆, -, returned⟩ := returns_bind_iff.1 returned
  obtain ⟨rfl, -⟩ := returns_pure_iff.1 returned
  exact outcome_newton_ne family weights ridge member tolerance iterated

end Runs

/-- **When the system of a generalized linear model is singular.** Over a store with observations,
none of negative weight, the Jacobian with a ridge is positive semidefinite at all coefficients; and
where the system can be scaled, its solve fails exactly if there is no ridge and the observations of
positive weight leave a direction open. With a ridge that outweighs the tolerance, neither an
iteration nor a fit gives up on a Jacobian. -/
theorem singular_iff_open_direction (family : g.family = some f)
    (weights : ∀ o ∈ store.log, 0 ≤ o.weight) {o : Observation ℝ} (member : o ∈ store.log) :
    let n := g.dim o.x.length
    (∀ (beta : Vec ℝ n) (epsilon : ℝ), 0 ≤ epsilon →
      ∃ s, g.evaluate n store (.ofVec beta) = .ok s ∧
        let s := s.regularize epsilon beta
        (Matrix.of fun i j => s.jacobian i j).PosSemidef ∧
          ∀ tol c, Scaling.ofJacobian? tol s.jacobian = .ok (some c) →
            ∃ r, (c.apply s).newtonStep = .ok r ∧
              (r.reason = some .singularSystem ↔
                epsilon = 0 ∧ ∃ v : Fin n → ℝ, v ≠ 0 ∧ g.IsOpenDirection store v)) ∧
    ∀ config : Config ℝ, 0 < config.epsilon → config.jacobianTol < 2 * config.epsilon * n →
      ∀ {σ : Type} (observer : Option (Observer σ ℝ)) (u : σ),
        (∀ start r,
          (Run.start u (Newton.fromGrid g.model.lift store config observer start)).1 = .ok r →
            r.outcome ≠ .diverged .degenerateJacobian ∧ r.outcome ≠ .diverged .singularSystem) ∧
        ∀ [LeastSquares ℝ] r,
          (Run.start u (Fitter.solve ⟨g.model.lift, config, store⟩ observer)).1 = .ok r →
            r.outcome ≠ .diverged .degenerateJacobian ∧ r.outcome ≠ .diverged .singularSystem := by
  intro n
  constructor
  · intro beta epsilon ridge
    let samples := store.log.map (Design.sample n g.intercept)
    have evaluated : g.evaluate n store (.ofVec beta) = .ok (f.system samples beta) :=
      (evaluate_eq_ok_iff family).2 ⟨⟨o.x.length, Store.columns?_of_mem member, rfl⟩, rfl⟩
    refine ⟨f.system samples beta, evaluated, posSemidef family weights evaluated ridge, ?_⟩
    intro tol c scaled
    have nonempty : 0 < n := Nat.add_pos_left (store.uniform o member).1 _
    obtain ⟨r, solved, cases⟩ := System.exists_newtonStep_apply nonempty scaled
    refine ⟨r, solved, ?_⟩
    rw [← isSingular_iff family weights evaluated ridge]
    rcases cases with ⟨reason, regular⟩ | ⟨reason, singular⟩
    · rw [reason]
      exact iff_of_false nofun regular
    · exact iff_of_true reason singular
  · intro config ridge tolerance σ observer u
    constructor
    · intro start r started
      obtain ⟨w', returned⟩ := Run.start_eq_ok_iff.1 started
      exact outcome_fromGrid_ne family weights ridge member tolerance returned
    · intro _ r started
      obtain ⟨w', returned⟩ := Run.start_eq_ok_iff.1 started
      exact outcome_solve_ne family weights ridge member tolerance returned

/-- One observation leaves a direction open if there are two coefficients, so without a ridge the
system of least squares is singular. With a ridge it is not. -/
theorem singular_iff_open_direction_single :
    let g : GeneralizedLinear ℝ := ⟨some .linear, false⟩
    let store : Store ℝ := (Store.empty none).push ⟨[1, 2], 3, 1⟩ (by decide) nofun
    let beta : Vec ℝ 2 := .replicate 2 0
    (∃ s c r, g.evaluate 2 store (.ofVec beta) = .ok s ∧
      Scaling.ofJacobian? 0 (s.regularize 0 beta).jacobian = .ok (some c) ∧
      (c.apply (s.regularize 0 beta)).newtonStep = .ok r ∧ r.reason = some .singularSystem) ∧
    ∀ r, (Run.start () (Newton.fromGrid g.model.lift store ⟨1, 0, 3, 0, 100, .level 0, false⟩ none
      (.ofVec beta))).1 = .ok r →
        r.outcome ≠ .diverged .degenerateJacobian ∧ r.outcome ≠ .diverged .singularSystem := by
  intro g store beta
  let o : Observation ℝ := ⟨[1, 2], 3, 1⟩
  have log : store.log = [o] := rfl
  have weights : ∀ o ∈ store.log, 0 ≤ o.weight := by
    intro o' member
    rw [log, List.mem_singleton] at member
    rw [member]
    exact zero_le_one
  have member : o ∈ store.log := by
    rw [log]
    exact List.mem_singleton_self o
  obtain ⟨systems, runs⟩ := singular_iff_open_direction (g := g) (f := .linear) rfl weights member
  constructor
  · obtain ⟨s, evaluated, -, solves⟩ := systems beta 0 le_rfl
    have total : ((Family.linear.system [Design.sample 2 false o] beta).regularize 0
        beta).jacobian.absTotal = 9 := by
      simp [Mat.absTotal_eq_sum, Fin.sum_univ_two, Family.system, Family.curvature,
        Family.variance, Design.total, Design.sample, Design.row, o]
      norm_num
    obtain ⟨-, rfl⟩ := (evaluate_eq_ok_iff rfl).1 evaluated
    have scaled : Scaling.ofJacobian? 0 ((Family.linear.system [Design.sample 2 false o]
        beta).regularize 0 beta).jacobian = .ok (some ⟨4 / 9⟩) := by
      rw [Scaling.ofJacobian?, total, Scaling.ofTotal?_eq]
      norm_num
    obtain ⟨r, solved, reason⟩ := solves 0 _ scaled
    refine ⟨_, _, r, evaluated, scaled, solved, reason.2 ⟨rfl, ![2, -1], ?_, ?_⟩⟩
    · intro zero
      have entry : (2 : ℝ) = 0 := congrFun zero 0
      exact two_ne_zero entry
    · intro o' member' _
      rw [log, List.mem_singleton] at member'
      rw [member']
      change ∑ j : Fin 2, Design.row 2 false [1, 2] j * (![2, -1] : Fin 2 → ℝ) j = 0
      simp [Fin.sum_univ_two, Design.row]
  · intro r returned
    refine (runs ⟨1, 0, 3, 0, 100, .level 0, false⟩ one_pos ?_ none ()).1 _ r returned
    norm_num [dim, g, o]

end GeneralizedLinear

end BalanceFit
