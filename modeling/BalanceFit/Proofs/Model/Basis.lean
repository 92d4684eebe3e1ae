import Mathlib.Algebra.BigOperators.Ring.List
import Mathlib.LinearAlgebra.Matrix.NonsingularInverse
import BalanceFit.Model.GeneralizedLinear
import BalanceFit.Proofs.Model.LeastNorm

/-!
# Another basis of the predictors

A matrix `t` that is applied to all design rows takes the balance to its product with `t`, and the
Jacobian to `t J tᵀ`, if `tᵀ` takes the new coefficients to the old ones. If `t` is regular the new
Jacobian is singular exactly if the old one is, and the step is taken by the inverse of `tᵀ`. A
ridge has no part in this, unless `t` keeps lengths.

## Main definitions

* `Vec.transformed`, `Mat.transformed`, `System.transformed` : the products with `t`
* `Sample.transformed` : a sample in another basis

## Main statements

* `Family.system_transformed` : the system of a family in another basis
* `LinearSolve.ofMatrix_transformed` : its solve
* `System.regularize_transformed` : its ridge, if `t` keeps lengths
-/

namespace BalanceFit

open Matrix

section Products

variable {K : Type} [Field K] {n : Nat}

/-- A matrix times a vector. -/
def Vec.transformed (t : Matrix (Fin n) (Fin n) K) (v : Vec K n) : Vec K n := .ofFn (t *ᵥ (v ·))

@[simp] theorem Vec.transformed_apply (t : Matrix (Fin n) (Fin n) K) (v : Vec K n) (i : Fin n) :
    v.transformed t i = (t *ᵥ (v ·)) i :=
  Vec.ofFn_apply _ i

theorem Vec.transformed_sub (t : Matrix (Fin n) (Fin n) K) (v w : Vec K n) :
    zipWith (· - ·) (v.transformed t) (w.transformed t) =
      (zipWith (· - ·) v w).transformed t := by
  have difference : (zipWith (· - ·) v w ·) = (v ·) - (w ·) := funext fun i => zipWith_apply ..
  ext i
  rw [zipWith_apply, transformed_apply, transformed_apply, transformed_apply, difference,
    mulVec_sub]
  rfl

/-- A regular matrix brings back what its inverse has changed. -/
theorem Vec.mulVec_transformed_inv {t : Matrix (Fin n) (Fin n) K} (regular : t.det ≠ 0)
    (v : Vec K n) : t *ᵥ (v.transformed t⁻¹ ·) = (v ·) := by
  simp only [transformed_apply]
  rw [mulVec_mulVec, mul_nonsing_inv t (isUnit_iff_ne_zero.2 regular), one_mulVec]

/-- The matrix `t a tᵀ`. -/
def Mat.transformed (t : Matrix (Fin n) (Fin n) K) (a : Mat K n n) : Mat K n n :=
  .ofFn fun i j => (t * a.toMatrix * tᵀ) i j

@[simp] theorem Mat.toMatrix_transformed (t : Matrix (Fin n) (Fin n) K) (a : Mat K n n) :
    (a.transformed t).toMatrix = t * a.toMatrix * tᵀ := by
  ext i j
  exact Mat.ofFn_apply _ i j

omit [Field K] in
theorem Mat.eq_of_toMatrix_eq {a b : Mat K n n} (same : a.toMatrix = b.toMatrix) : a = b := by
  ext i j
  exact congrFun (congrFun same i) j

/-- A system in another basis. -/
def System.transformed (t : Matrix (Fin n) (Fin n) K) (s : System K n) : System K n where
  balance := s.balance.transformed t
  jacobian := s.jacobian.transformed t

/-- A sample in another basis. -/
def Sample.transformed (t : Matrix (Fin n) (Fin n) K) (s : Sample K n) : Sample K n :=
  { s with row := s.row.transformed t }

theorem Mat.isSingular_transformed_iff {t : Matrix (Fin n) (Fin n) K} (regular : t.det ≠ 0)
    {a : Mat K n n} : (a.transformed t).IsSingular ↔ a.IsSingular := by
  rw [isSingular_iff_det_eq_zero, isSingular_iff_det_eq_zero, toMatrix_transformed, det_mul,
    det_mul, det_transpose, mul_eq_zero, mul_eq_zero, or_iff_left regular, or_iff_right regular]

end Products

variable {K : Type} [Field K] [LinearOrder K] {n : Nat} {t : Matrix (Fin n) (Fin n) K}

namespace Design

variable (t : Matrix (Fin n) (Fin n) K)

theorem moment_transformed (terms : List (Vec K n × K)) :
    moment (terms.map fun x => (x.1.transformed t, x.2)) = (moment terms).transformed t := by
  ext i
  have row : (t *ᵥ (moment terms ·)) i = ∑ j, moment terms j * t i j := by
    rw [mulVec, dotProduct_comm]
    rfl
  rw [Vec.transformed_apply, row, sum_moment_mul, moment_apply, total_eq_sum, List.map_map]
  refine congrArg List.sum (List.map_congr_left fun x _ => ?_)
  change x.1.transformed t i * x.2 = _
  rw [Vec.transformed_apply, mulVec, dotProduct_comm, mul_comm]
  rfl

theorem gram_transformed (terms : List (Vec K n × K)) :
    gram (terms.map fun x => (x.1.transformed t, x.2)) = (gram terms).transformed t := by
  ext i j
  have entry : (t * (gram terms).toMatrix * tᵀ) i j = ∑ k, (gram terms).mulVec (t j) k * t i k := by
    rw [Matrix.mul_assoc, Matrix.mul_apply]
    exact Finset.sum_congr rfl fun k _ => mul_comm _ _
  rw [Mat.transformed, Mat.ofFn_apply, entry, sum_mulVec_gram_mul, gram_apply, total_eq_sum,
    List.map_map]
  refine congrArg List.sum (List.map_congr_left fun x _ => ?_)
  have product_row (l : Fin n) : x.1.transformed t l = product x.1 (t l) := by
    rw [Vec.transformed_apply, mulVec, dotProduct_comm]
    rfl
  change x.1.transformed t i * (x.1.transformed t j * x.2) = _
  rw [product_row, product_row]
  ring

/-- The product of a row with coefficients does not depend on the basis. -/
theorem dot_transformed {b b' : Vec K n} (same : tᵀ *ᵥ (b' ·) = (b ·)) (x : Vec K n) :
    (x.transformed t).dot b' = x.dot b := by
  have products : (t *ᵥ (x ·)) ⬝ᵥ (b' ·) = (x ·) ⬝ᵥ (b ·) := by
    rw [← same, dotProduct_mulVec, vecMul_transpose]
  rw [Vec.dot_eq_sum, Vec.dot_eq_sum]
  simp only [Vec.transformed_apply]
  exact products

end Design

/-- **Balances and Jacobians in another basis.** -/
theorem Family.system_transformed [Transcendental K] (f : Family K) (samples : List (Sample K n))
    {b b' : Vec K n} (same : tᵀ *ᵥ (b' ·) = (b ·)) :
    f.system (samples.map (Sample.transformed t)) b' = (f.system samples b).transformed t := by
  have mean (s : Sample K n) : f.meanAt b' (s.transformed t) = f.meanAt b s :=
    congrArg f.mean (Design.dot_transformed t same s.row)
  rw [system, system, System.transformed, ← Design.moment_transformed, ← Design.gram_transformed]
  simp only [List.map_map]
  refine congrArg₂ System.mk (congrArg Design.moment (List.map_congr_left fun s _ => ?_))
    (congrArg Design.gram (List.map_congr_left fun s _ => ?_))
  · exact congrArg (fun mu => (s.row.transformed t, s.weight * (mu - s.y))) (mean s)
  · exact congrArg (fun mu => (s.row.transformed t, s.weight * f.variance mu)) (mean s)

namespace System

/-- A common factor of both sides is one in every basis. -/
theorem apply_transformed (c : Scaling K) (s : System K n) :
    c.apply (s.transformed t) = (c.apply s).transformed t := by
  have balance : (c.apply s).balance.transformed t = (c.apply (s.transformed t)).balance := by
    ext i
    have factor : ((c.apply s).balance ·) = c.factor • (s.balance ·) := by
      ext j
      rw [Scaling.apply_balance_apply, Pi.smul_apply, smul_eq_mul, mul_comm]
    rw [Vec.transformed_apply, factor, mulVec_smul, Scaling.apply_balance_apply, transformed,
      Vec.transformed_apply, Pi.smul_apply, smul_eq_mul, mul_comm]
  have jacobian : (c.apply s).jacobian.transformed t = (c.apply (s.transformed t)).jacobian := by
    have factor (s : System K n) :
        (c.apply s).jacobian.toMatrix = c.factor • s.jacobian.toMatrix := by
      ext i j
      rw [Mat.toMatrix_apply, Scaling.apply_jacobian_apply, Matrix.smul_apply, smul_eq_mul,
        mul_comm]
      rfl
    apply Mat.eq_of_toMatrix_eq
    rw [Mat.toMatrix_transformed, factor, factor, transformed, Mat.toMatrix_transformed,
      Matrix.mul_smul, Matrix.smul_mul]
  exact congrArg₂ System.mk balance.symm jacobian.symm

/-- A ridge is one in every basis that keeps lengths. -/
theorem regularize_transformed (orthogonal : t * tᵀ = 1) (epsilon : K) (b : Vec K n)
    (s : System K n) :
    (s.transformed t).regularize epsilon (b.transformed t) =
      (s.regularize epsilon b).transformed t := by
  have balance : (s.regularize epsilon b).balance.transformed t =
      ((s.transformed t).regularize epsilon (b.transformed t)).balance := by
    have ridge : ((s.regularize epsilon b).balance ·) =
        (s.balance ·) + (2 * epsilon) • (b ·) := by
      ext j
      rw [regularize_balance_apply, Nat.cast_ofNat]
      rfl
    ext i
    rw [Vec.transformed_apply, ridge, mulVec_add, mulVec_smul, regularize_balance_apply,
      transformed, Vec.transformed_apply, Vec.transformed_apply, Nat.cast_ofNat]
    rfl
  have jacobian : (s.regularize epsilon b).jacobian.transformed t =
      ((s.transformed t).regularize epsilon (b.transformed t)).jacobian := by
    have ridge (s : System K n) (b : Vec K n) : (s.regularize epsilon b).jacobian.toMatrix =
        s.jacobian.toMatrix + (2 * epsilon) • 1 := by
      ext i j
      rw [Mat.toMatrix_apply, regularize_jacobian_apply, Matrix.add_apply, Matrix.smul_apply,
        Matrix.one_apply, Nat.cast_ofNat]
      split
      · rw [smul_eq_mul, mul_one]
        rfl
      · rw [smul_zero, add_zero]
        rfl
    apply Mat.eq_of_toMatrix_eq
    rw [Mat.toMatrix_transformed, ridge, ridge, transformed, Mat.toMatrix_transformed,
      Matrix.mul_add, Matrix.add_mul, Matrix.mul_smul, Matrix.mul_one, Matrix.smul_mul, orthogonal]
  exact congrArg₂ System.mk balance.symm jacobian.symm

end System

variable [IsStrictOrderedRing K]

/-- **A regular change of the basis takes solutions to solutions**, by the inverse of `tᵀ`. -/
theorem LinearSolve.ofMatrix_transformed (regular : t.det ≠ 0) (s : System K n) :
    (ofMatrix (s.transformed t).jacobian (.column (s.transformed t).balance)).map Mat.firstColumn =
      ((ofMatrix s.jacobian (.column s.balance)).map Mat.firstColumn).map
        (Vec.transformed tᵀ⁻¹) := by
  have unit : IsUnit tᵀ.det := isUnit_iff_ne_zero.2 (det_transpose t ▸ regular)
  let f (x : Mat K n 1) : Mat K n 1 := .column (x.firstColumn.transformed tᵀ⁻¹)
  have corresponding : ofMatrix (s.transformed t).jacobian (.column (s.transformed t).balance) =
      (ofMatrix s.jacobian (.column s.balance)).map f := by
    refine ofMatrix_eq_map f (Mat.isSingular_transformed_iff regular) fun x equations i c => ?_
    have solved : s.jacobian.toMatrix *ᵥ (x.firstColumn ·) = (s.balance ·) := by
      ext j
      have equation := equations j 0
      rw [Mat.column, Mat.ofFn_apply] at equation
      rw [← equation, Mat.firstColumn]
      simp only [Vec.ofFn_apply]
      rfl
    have product : (s.jacobian.transformed t).toMatrix *ᵥ (tᵀ⁻¹ *ᵥ (x.firstColumn ·)) =
        t *ᵥ (s.balance ·) := by
      rw [Mat.toMatrix_transformed, mulVec_mulVec, mul_nonsing_inv_cancel_right _ _ unit,
        ← mulVec_mulVec, solved]
    simp only [f, Mat.column, Mat.ofFn_apply, Vec.transformed_apply, System.transformed]
    exact congrFun product i
  rw [corresponding, map, map, map, map, Option.map_map, Option.map_map]
  refine congrArg (LinearSolve.mk · _) (Option.map_congr fun x _ => ?_)
  ext i
  simp only [f, Function.comp_apply, Mat.firstColumn, Mat.column, Vec.ofFn_apply, Mat.ofFn_apply]

/-- So it takes steps to steps. -/
theorem System.newtonStep_transformed (regular : t.det ≠ 0) (s : System K n) :
    (s.transformed t).newtonStep = s.newtonStep.map (LinearSolve.map (Vec.transformed tᵀ⁻¹)) := by
  cases n with
  | zero => rfl
  | succ n => exact congrArg Except.ok (LinearSolve.ofMatrix_transformed regular s)

end BalanceFit
