import Mathlib.Algebra.BigOperators.Field
import Mathlib.Algebra.Order.BigOperators.Group.List
import Mathlib.Algebra.Order.Field.Basic
import Mathlib.Analysis.SpecialFunctions.Log.Basic
import Mathlib.Analysis.SpecialFunctions.Sigmoid
import Mathlib.LinearAlgebra.Matrix.DotProduct
import Mathlib.LinearAlgebra.Matrix.ToLin
import Mathlib.Tactic.NormNum
import BalanceFit.Proofs.Fitter.LeastSquares
import BalanceFit.Proofs.Model.Ridge

/-!
# Data without noise

If every response is the mean at some coefficients, and the link takes the responses as they are,
then the linked responses are the linear predictors themselves. Those coefficients leave no
residual, so neither does the least-squares solution that a fit begins at. There the means are the
responses, the balance is zero, and without a ridge the fit is over before its first step.

This needs no regular design: a design that is singular fixes the linear predictors, though it does
not fix the coefficients.

## Main definitions

* `Family.Unclamped` : the responses that a link takes as they are

## Main statements

* `Family.link_mean` : for them the link is the inverse of the mean
* `Design.product_eq_of_squares_le` : least squares leave no residual that can be avoided
* `GeneralizedLinear.solve_noiseless` : the fit ends at its start
-/

namespace BalanceFit

namespace Family

/-- Whether the link takes a response as it is. -/
def Unclamped : Family ℝ → ℝ → Prop
  | linear, _ => True
  | logistic clip, y => clip ≤ y ∧ y ≤ 1 - clip
  | poisson, y => ((2 : ℕ) : ℝ)⁻¹ ≤ y

theorem larger_eq_left {K : Type} [Field K] [LinearOrder K] {x y : K} (h : y ≤ x) :
    larger x y = x := by
  rw [larger, if_neg (mt Scalar.lt_iff.1 h.not_gt), if_pos (Scalar.le_iff.2 h)]

theorem smaller_eq_left {K : Type} [Field K] [LinearOrder K] {x y : K} (h : x ≤ y) :
    smaller x y = x := by
  rw [smaller, if_neg (mt Scalar.lt_iff.1 h.not_gt), if_pos (Scalar.le_iff.2 h)]

/-- **The link is the inverse of the mean** as far as it takes the means as they are. -/
theorem link_mean (f : Family ℝ) {eta : ℝ} (unclamped : f.Unclamped (f.mean eta)) :
    f.link (f.mean eta) = eta := by
  cases f with
  | linear => rfl
  | logistic clip =>
    obtain ⟨above, below⟩ := unclamped
    have odds : Real.sigmoid eta / (1 - Real.sigmoid eta) = Real.exp eta := by
      rw [← Real.sigmoid_neg, ← Real.sigmoid_mul_rexp_neg, Real.exp_neg,
        div_mul_cancel_left₀ (Real.sigmoid_pos eta).ne', inv_inv]
    rw [link, larger_eq_left above, smaller_eq_left below]
    exact (congrArg Real.log odds).trans (Real.log_exp eta)
  | poisson =>
    have least : (leastCount : ℝ) = ((2 : ℕ) : ℝ)⁻¹ := one_div _
    rw [link, least, if_neg (mt Scalar.lt_iff.1 unclamped.not_gt)]
    exact Real.log_exp eta

end Family

section Fitted

variable {K : Type} [Field K] [LinearOrder K] {p : Nat}

/-- Where every mean is the response of its sample the balance is zero. -/
theorem Family.balance_eq_zero [Transcendental K] (f : Family K) {samples : List (Sample K p)}
    {b : Vec K p} (fitted : ∀ s ∈ samples, f.meanAt b s = s.y) (i : Fin p) :
    (f.system samples b).balance i = 0 := by
  rw [Family.system, Design.moment_apply, Design.total_eq_sum, List.map_map]
  refine List.sum_eq_zero fun x member => ?_
  obtain ⟨s, inside, rfl⟩ := List.mem_map.1 member
  change s.row i * (s.weight * (f.meanAt b s - s.y)) = 0
  rw [fitted s inside, sub_self, mul_zero, mul_zero]

/-- If the design has full column rank, its rows tell coefficients apart. -/
theorem Store.eq_of_dot_eq {s : Store K} {intercept : Bool}
    (independent : LinearIndependent K (s.designMatrix p intercept).col) {b b' : Vec K p}
    (same : ∀ o ∈ s.log,
      (Design.row p intercept o.x).dot b = (Design.row p intercept o.x).dot b') : b = b' := by
  have products : (s.designMatrix p intercept).mulVec (b ·) =
      (s.designMatrix p intercept).mulVec (b' ·) := by
    funext i
    have row := same s.log[i] (List.getElem_mem i.isLt)
    rw [Vec.dot_eq_sum, Vec.dot_eq_sum] at row
    exact row
  ext i
  exact congrFun (Matrix.mulVec_injective_iff.2 independent products) i

/-- **Least squares leave no residual that can be avoided**: where the sum of squares is at most
that of a vector that fits all samples, all samples are fitted. -/
theorem Design.product_eq_of_squares_le [IsStrictOrderedRing K] {samples : List (Sample K p)}
    {x y : Fin p → K} (positive : ∀ s ∈ samples, 0 < s.weight)
    (fitted : ∀ s ∈ samples, product s.row y = s.y) (least : squares samples x ≤ squares samples y)
    {s : Sample K p} (member : s ∈ samples) : product s.row x = s.y := by
  have nothing : squares samples y = 0 := by
    refine List.sum_eq_zero fun z summand => ?_
    obtain ⟨s, inside, rfl⟩ := List.mem_map.1 summand
    rw [fitted s inside, sub_self, sq, mul_zero, mul_zero]
  have nonneg : ∀ z ∈ samples.map fun s => s.weight * (product s.row x - s.y) ^ 2, 0 ≤ z :=
    List.forall_mem_map.2 fun s inside => mul_nonneg (positive s inside).le (sq_nonneg _)
  have sum : squares samples x = 0 :=
    le_antisymm (least.trans nothing.le) (List.sum_nonneg nonneg)
  have square : s.weight * (product s.row x - s.y) ^ 2 = 0 :=
    List.all_zero_of_le_zero_le_of_sum_eq_zero nonneg sum (List.mem_map.2 ⟨s, member, rfl⟩)
  rw [mul_eq_zero, or_iff_right (positive s member).ne', pow_eq_zero_iff two_ne_zero] at square
  exact sub_eq_zero.1 square

end Fitted

namespace GeneralizedLinear

variable {σ : Type} [LeastSquares ℝ] [LeastSquares.Lawful ℝ] {f : Family ℝ} {config : Config ℝ}
  {store : Store ℝ} {observer : Option (Observer σ ℝ)} {o : Observation ℝ}

/-- If the responses are means that the link takes as they are, the start has the linear predictors
that they are the means of. -/
theorem dot_start_of_noiseless (positive : ∀ o ∈ store.log, 0 < o.weight) {p : Nat}
    {truth : Vec ℝ p}
    (noiseless : ∀ o ∈ store.log, o.y = f.mean ((Design.row p false o.x).dot truth))
    (unclamped : ∀ o ∈ store.log, f.Unclamped o.y) (member : o ∈ store.log) :
    (Design.row p false o.x).dot ((⟨some f, false⟩ : GeneralizedLinear ℝ).start f p store.log) =
      (Design.row p false o.x).dot truth := by
  let samples := store.log.map fun o => Design.sample p false (f.linked o)
  -- The linked responses are linear predictors, which leave no residual.
  have linked : ∀ o ∈ store.log, f.link o.y = (Design.row p false o.x).dot truth := by
    intro o inside
    have taken := unclamped o inside
    rw [noiseless o inside] at taken ⊢
    exact f.link_mean taken
  have weights : ∀ s ∈ samples, 0 < s.weight := List.forall_mem_map.2 positive
  have fitted : ∀ s ∈ samples, Design.product s.row (truth ·) = s.y := by
    refine List.forall_mem_map.2 fun o inside => ?_
    rw [← Design.dot_eq_product]
    exact (linked o inside).symm
  have least := isLeastNorm_start f (fun o inside => (positive o inside).le) p
  rw [← linked o member]
  refine (Design.dot_eq_product _ _).trans ?_
  exact Design.product_eq_of_squares_le weights fitted (least.least (truth ·))
    (List.mem_map.2 ⟨o, member, rfl⟩)

/-- **Data without noise is recovered by the warm start**: if the responses are means that the link
takes as they are, and there is neither intercept nor ridge, the fit ends at its start with a
balance of zero. The start has the linear predictors that the responses are the means of; so with
full column rank it has the coefficients. -/
theorem solve_noiseless (accepted : config.accepted = true) (ridgeless : config.epsilon = 0)
    (passive : ∀ o ∈ observer, o.Passive) (member : o ∈ store.log)
    (positive : ∀ o ∈ store.log, 0 < o.weight) (truth : Vec ℝ o.x.length)
    (noiseless : ∀ o' ∈ store.log,
      o'.y = f.mean ((Design.row o.x.length false o'.x).dot truth))
    (unclamped : ∀ o' ∈ store.log, f.Unclamped o'.y) (u : σ) :
    let g : GeneralizedLinear ℝ := ⟨some f, false⟩
    let fitter : Fitter σ ℝ := ⟨g.model.lift, config, store⟩
    ∃ beta : Vec ℝ o.x.length,
      (Run.start u fitter.warmStart).1 =
        (config.verbosity.atLeast 1).map (fun _ => beta.toList) ∧
      (Run.start u (fitter.solve observer)).1 = (config.verbosity.atLeast 1).map (fun _ =>
        ⟨.converged, beta.toList, 1, 0, if config.history then some [beta.toList] else none⟩) ∧
      (∀ o' ∈ store.log, (Design.row o.x.length false o'.x).dot beta =
        (Design.row o.x.length false o'.x).dot truth) ∧
      (LinearIndependent ℝ (store.designMatrix o.x.length false).col → beta = truth) := by
  intro g fitter
  let beta : Vec ℝ o.x.length := g.start f o.x.length store.log
  have predictors : ∀ o' ∈ store.log, (Design.row o.x.length false o'.x).dot beta =
      (Design.row o.x.length false o'.x).dot truth :=
    fun o' inside => dot_start_of_noiseless positive noiseless unclamped inside
  -- So at the start the means are the responses.
  have fitted : ∀ s ∈ store.log.map (Design.sample o.x.length false), f.meanAt beta s = s.y :=
    List.forall_mem_map.2 fun o' inside =>
      (congrArg f.mean (predictors o' inside)).trans (noiseless o' inside).symm
  have total : (g.ridgeSystem f config store.log beta).balance.absTotal = 0 := by
    rw [Vec.absTotal_eq_sum]
    refine Finset.sum_eq_zero fun i _ => ?_
    rw [ridgeSystem, System.regularize_balance_apply, f.balance_eq_zero fitted, ridgeless, mul_zero,
      zero_mul, add_zero, abs_zero]
  have balanced : (g.ridgeSystem f config store.log beta).balance.absTotal ≤ config.balanceTol :=
    total.le.trans (Scalar.isThreshold_iff.1 (Config.isThreshold_balanceTol accepted))
  have prepared {β : Type} (r : β) :=
    prepare_of_no_intercept (g := g) config rfl o.x.length r
  refine ⟨beta, (start_warmStart rfl member u).trans (prepared _), ?_, predictors,
    fun independent => Store.eq_of_dot_eq independent predictors⟩
  rw [← prepared, ← total]
  refine (solve_eq_firstStop rfl accepted passive member u).trans ?_
  congr 1
  funext _
  exact firstStop_of_balanced accepted balanced

omit [LeastSquares ℝ] [LeastSquares.Lawful ℝ] in
/-- Two counts that grow as the exponential of a single predictor give the coefficient back. -/
theorem solve_noiseless_exponential :
    let _ : LeastSquares ℝ := .exact ℝ
    let g : GeneralizedLinear ℝ := ⟨some .poisson, false⟩
    let config : Config ℝ := ⟨0, 0, 0, 0, 3, .level 0, true⟩
    let store : Store ℝ := .ofLog 1 [⟨[1], Real.exp 1, 1⟩, ⟨[2], Real.exp 2, 3⟩] (by simp)
    let fitter : Fitter Unit ℝ := ⟨g.model.lift, config, store⟩
    (Run.start () fitter.warmStart).1 = .ok [1] ∧
      (Run.start () (fitter.solve (some Observer.idle))).1 =
        .ok ⟨.converged, [1], 1, 0, some [[1]]⟩ := by
  intro _ g config store fitter
  have := LeastSquares.lawful_exact (K := ℝ)
  let o : Observation ℝ := ⟨[1], Real.exp 1, 1⟩
  let truth : Vec ℝ 1 := .replicate 1 1
  have accepted : config.accepted = true := by
    simp [config, Config.accepted]
  have member : o ∈ store.log := List.mem_cons_self
  have log {P : Observation ℝ → Prop} (first : P o) (second : P ⟨[2], Real.exp 2, 3⟩) :
      ∀ o ∈ store.log, P o := by
    simpa [store, Store.ofLog] using ⟨first, second⟩
  have positive : ∀ o ∈ store.log, 0 < o.weight := log one_pos three_pos
  have row (x : ℝ) : (Design.row 1 false [x]).dot truth = x := by
    simp [Vec.dot_eq_sum, Design.row, truth]
  have noiseless : ∀ o ∈ store.log,
      o.y = Family.poisson.mean ((Design.row 1 false o.x).dot truth) :=
    log (congrArg Real.exp (row 1).symm) (congrArg Real.exp (row 2).symm)
  have large {x : ℝ} (nonneg : 0 ≤ x) : Family.poisson.Unclamped (Real.exp x) := by
    have half : ((2 : ℕ) : ℝ)⁻¹ ≤ 1 := by norm_num
    exact half.trans (Real.one_le_exp nonneg)
  have unclamped : ∀ o ∈ store.log, Family.poisson.Unclamped o.y :=
    log (large zero_le_one) (large zero_le_two)
  have independent : LinearIndependent ℝ (store.designMatrix 1 false).col := by
    refine linearIndependent_unique_iff.2 fun zero => one_ne_zero (α := ℝ) ?_
    exact congrFun zero ⟨0, by decide⟩
  obtain ⟨beta, started, solved, -, recovered⟩ := solve_noiseless accepted rfl
    Observer.passive_idle member positive truth noiseless unclamped ()
  rw [recovered independent] at started solved
  exact ⟨started, solved⟩

end GeneralizedLinear

end BalanceFit
