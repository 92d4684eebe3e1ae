import Mathlib.Analysis.Calculus.Deriv.Comp
import Mathlib.Analysis.Calculus.Deriv.Pi
import Mathlib.Analysis.Calculus.Deriv.Prod
import Mathlib.Analysis.Calculus.FDeriv.Add
import Mathlib.Analysis.Calculus.FDeriv.Pi
import Mathlib.Analysis.SpecialFunctions.ExpDeriv
import Mathlib.Analysis.SpecialFunctions.Sigmoid
import Mathlib.Topology.Algebra.Module.FiniteDimension
import BalanceFit.Proofs.Model.Evaluation
import BalanceFit.Proofs.Model.Family
import BalanceFit.Proofs.Model.Gram
import BalanceFit.Proofs.System.Solved

/-!
# Jacobians are derivatives

A family gives its mean and its variance by separate formulas, and the ridge is added to the balance
and to the Jacobian separately. They fit together: the variance is the derivative of the mean, so
the Jacobian of a sum over samples is the derivative of its balance, and the ridge keeps it so.

## Main definitions

* `Mat.derivative` : a matrix as the derivative of a map of vectors

## Main statements

* `Family.hasDerivAt_mean` : the variance is the derivative of the mean
* `Family.hasFDerivAt_system`, `System.hasFDerivAt_regularize` : the Jacobian is the derivative of
  the balance, before and after the ridge
* `GeneralizedLinear.hasFDerivAt_balance` : so it is in every evaluation over observations
-/

namespace BalanceFit

variable {n : Nat}

/-- A matrix as a derivative: the continuous linear map that multiplies vectors by it. -/
noncomputable def Mat.derivative (a : Mat ℝ n n) : (Fin n → ℝ) →L[ℝ] Fin n → ℝ :=
  a.toMatrix.mulVecLin.toContinuousLinearMap

theorem Mat.derivative_apply (a : Mat ℝ n n) (v : Fin n → ℝ) (i : Fin n) :
    a.derivative v i = a.mulVec v i :=
  rfl

/-- An entry of the matrix is a partial derivative. -/
theorem Mat.derivative_single (a : Mat ℝ n n) (i j : Fin n) :
    a.derivative (Pi.single j 1) i = a i j := by
  rw [derivative_apply, mulVec, Finset.sum_eq_single j]
  · rw [Pi.single_eq_same, mul_one]
  · intro k _ other
    rw [Pi.single_eq_of_ne other, mul_zero]
  · exact fun missing => absurd (Finset.mem_univ j) missing

/-- The variance is the derivative of the mean. -/
theorem Family.hasDerivAt_mean (f : Family ℝ) (eta : ℝ) :
    HasDerivAt f.mean (f.variance (f.mean eta)) eta := by
  cases f with
  | linear => exact hasDerivAt_id eta
  | logistic clip => exact Real.hasDerivAt_sigmoid eta
  | poisson => exact Real.hasDerivAt_exp eta

/-- The product with a row, as a linear map. -/
noncomputable def Design.productMap (x : Vec ℝ n) : (Fin n → ℝ) →L[ℝ] ℝ :=
  ∑ j, x j • ContinuousLinearMap.proj j

theorem Design.productMap_apply (x : Vec ℝ n) (v : Fin n → ℝ) :
    productMap x v = product x v := by
  simp [productMap, product]

theorem Family.hasFDerivAt_meanAt (f : Family ℝ) (s : Sample ℝ n) (v : Fin n → ℝ) :
    HasFDerivAt (fun v => f.meanAt (.ofFn v) s)
      (f.variance (f.meanAt (.ofFn v) s) • Design.productMap s.row) v := by
  have predictor (v : Fin n → ℝ) : s.row.dot (.ofFn v) = Design.productMap s.row v := by
    rw [Design.dot_eq_product, Design.productMap_apply]
    simp only [Vec.ofFn_apply]
  simp only [meanAt, predictor]
  exact (f.hasDerivAt_mean _).comp_hasFDerivAt v (Design.productMap s.row).hasFDerivAt

/-- The Jacobian of a sum over samples is the derivative of its balance. -/
theorem Family.hasFDerivAt_system (f : Family ℝ) (samples : List (Sample ℝ n)) (v : Fin n → ℝ) :
    HasFDerivAt (fun v => (f.system samples (.ofFn v)).balance.get)
      (f.system samples (.ofFn v)).jacobian.derivative v := by
  -- A coordinate of the balance is a sum of functions, one for each sample.
  refine hasFDerivAt_pi'.2 fun i => ?_
  let terms (k : Fin samples.length) (v : Fin n → ℝ) : ℝ :=
    samples[k].row i * f.residual (.ofFn v) samples[k]
  have balance (v : Fin n → ℝ) :
      (f.system samples (.ofFn v)).balance i = ∑ k, terms k v := by
    rw [system, Design.moment_apply, Design.total_eq_sum, List.map_map]
    exact (Fin.sum_univ_fun_getElem samples _).symm
  have derivatives (k : Fin samples.length) : HasFDerivAt (terms k)
      (samples[k].row i • samples[k].weight •
        f.variance (f.meanAt (.ofFn v) samples[k]) • Design.productMap samples[k].row) v :=
    (((f.hasFDerivAt_meanAt samples[k] v).sub_const _).const_mul _).const_mul _
  simp only [balance]
  refine (HasFDerivAt.fun_sum fun k _ => derivatives k).congr_fderiv
    (ContinuousLinearMap.ext fun w => ?_)
  -- Multiplied by a vector, the sum of their derivatives is the product with the Jacobian.
  have jacobian : (f.system samples (.ofFn v)).jacobian.mulVec w i = _ := Design.mulVec_gram _ w i
  change _ = (f.system samples (.ofFn v)).jacobian.mulVec w i
  rw [jacobian, Design.moment_apply, Design.total_eq_sum, List.map_map, List.map_map,
    ← Fin.sum_univ_fun_getElem, sum_apply]
  refine Finset.sum_congr rfl fun k _ => ?_
  simp only [smul_apply, Design.productMap_apply, smul_eq_mul, Function.comp_apply, curvature,
    Fin.getElem_fin, mul_assoc]

/-- It stays the derivative when the ridge is added to both. -/
theorem System.hasFDerivAt_regularize {system : Vec ℝ n → System ℝ n} {v : Fin n → ℝ}
    (derivative : HasFDerivAt (fun v => (system (.ofFn v)).balance.get)
      (system (.ofFn v)).jacobian.derivative v) (epsilon : ℝ) :
    HasFDerivAt (fun v => ((system (.ofFn v)).regularize epsilon (.ofFn v)).balance.get)
      ((system (.ofFn v)).regularize epsilon (.ofFn v)).jacobian.derivative v := by
  have balance (v : Fin n → ℝ) : ((system (.ofFn v)).regularize epsilon (.ofFn v)).balance.get =
      (system (.ofFn v)).balance.get + (2 * epsilon) • v := by
    funext i
    rw [regularize_balance_apply, Vec.ofFn_apply, Nat.cast_ofNat]
    rfl
  simp only [balance]
  refine (derivative.add ((hasFDerivAt_id v).const_smul (2 * epsilon))).congr_fderiv
    (ContinuousLinearMap.ext fun w => funext fun i => ?_)
  exact (mulVec_regularize epsilon _ _ w i).symm

/-- Along one coordinate the derivative is the entry of the matrix. -/
theorem Mat.hasDerivAt_coordinate {F : (Fin n → ℝ) → Fin n → ℝ} {a : Mat ℝ n n} {v : Fin n → ℝ}
    (derivative : HasFDerivAt F a.derivative v) (i j : Fin n) :
    HasDerivAt (fun t => F (Function.update v j t) i) (a i j) (v j) := by
  rw [← Function.update_eq_self j v] at derivative
  have along := derivative.comp_hasDerivAt (v j) (hasDerivAt_update v j (v j))
  rw [← a.derivative_single i j]
  exact hasDerivAt_pi.1 along i

namespace GeneralizedLinear

variable {g : GeneralizedLinear ℝ} {f : Family ℝ} {store : Store ℝ} {o : Observation ℝ}

/-- **The Jacobian is the derivative of the balance.** Over a store with observations, whatever
their weights, the evaluation at every vector of coefficients returns a balance and a Jacobian. With
any ridge added to both, the Jacobian is the derivative of the balance as a function of the
coefficients, and its entries are the partial derivatives. -/
theorem hasFDerivAt_balance (family : g.family = some f) (member : o ∈ store.log) (epsilon : ℝ) :
    let n := g.dim o.x.length
    ∃ s : (Fin n → ℝ) → System ℝ n,
      (∀ v, g.evaluate n store (.ofVec (.ofFn v)) = .ok (s v)) ∧
      let regularized v := (s v).regularize epsilon (.ofFn v)
      ∀ v,
        HasFDerivAt (fun w i => (regularized w).balance i) (regularized v).jacobian.derivative v ∧
        ∀ i j, HasDerivAt (fun t => (regularized (Function.update v j t)).balance i)
          ((regularized v).jacobian i j) (v j) := by
  intro n
  let samples := store.log.map (Design.sample n g.intercept)
  refine ⟨fun v => f.system samples (.ofFn v), fun v => ?_, fun v => ?_⟩
  · exact (evaluate_eq_ok_iff family).2 ⟨⟨_, Store.columns?_of_mem member, rfl⟩, rfl⟩
  · have derivative := System.hasFDerivAt_regularize (f.hasFDerivAt_system samples v) epsilon
    exact ⟨derivative, Mat.hasDerivAt_coordinate derivative⟩

/-- An observation of weight minus four whose mean is one half adds minus one times the square of
its row to the Jacobian, and the ridge adds one to the diagonal. -/
theorem hasFDerivAt_balance_logistic :
    let g : GeneralizedLinear ℝ := ⟨some (.logistic Family.defaultClip), true⟩
    let store : Store ℝ := (Store.empty none).push ⟨[2], 1, -4⟩ (by decide) nofun
    ∃ s : (Fin 2 → ℝ) → System ℝ 2,
      (∀ v, g.evaluate 2 store (.ofVec (.ofFn v)) = .ok (s v)) ∧
      let regularized v := (s v).regularize (1 / 2) (.ofFn v)
      HasDerivAt (fun t => (regularized (Function.update 0 1 t)).balance 0) (-2) 0 ∧
        HasDerivAt (fun t => (regularized (Function.update 0 0 t)).balance 0) (-3) 0 := by
  intro g store
  have member : (⟨[2], 1, -4⟩ : Observation ℝ) ∈ store.log := List.mem_singleton_self _
  obtain ⟨s, evaluated, derivatives⟩ : ∃ s : (Fin 2 → ℝ) → System ℝ 2,
      (∀ v, g.evaluate 2 store (.ofVec (.ofFn v)) = .ok (s v)) ∧
      ∀ v, _ ∧ ∀ i j : Fin 2, HasDerivAt
        (fun t => ((s (Function.update v j t)).regularize (1 / 2)
          (.ofFn (Function.update v j t))).balance i)
        (((s v).regularize (1 / 2) (.ofFn v)).jacobian i j) (v j) :=
    hasFDerivAt_balance (g := g) rfl member (1 / 2)
  have written : s 0 = _ := ((evaluate_eq_ok_iff rfl).1 (evaluated 0)).2
  have entry (j : Fin 2) : (s 0).jacobian 0 j = ![-4, -2] j := by
    have row (j : Fin 2) : Design.row 2 true [(2 : ℝ)] j = ![2, 1] j := by
      fin_cases j <;> simp [Design.row]
    have mean : (Family.logistic Family.defaultClip).meanAt (.ofFn 0)
        (Design.sample 2 true (⟨[2], 1, -4⟩ : Observation ℝ)) = 2⁻¹ := by
      rw [Family.meanAt, Vec.dot_eq_sum]
      simp [Family.mean, Transcendental.expit]
    rw [written, Family.system, Design.gram_apply]
    change 0 + Design.row 2 true [2] 0 * (Design.row 2 true [2] j * (-4 * (_ * (1 - _)))) = _
    rw [mean, row, row]
    fin_cases j <;> norm_num
  refine ⟨s, evaluated, ?_, ?_⟩
  · refine ((derivatives 0).2 0 1).congr_deriv ?_
    rw [System.regularize_jacobian_apply, entry]
    norm_num
  · refine ((derivatives 0).2 0 0).congr_deriv ?_
    rw [System.regularize_jacobian_apply, entry]
    norm_num

end GeneralizedLinear

end BalanceFit
