import Mathlib.Algebra.BigOperators.Field
import Mathlib.Algebra.BigOperators.Fin
import Mathlib.Algebra.BigOperators.Ring.List
import Mathlib.Algebra.Order.Field.Basic
import Mathlib.Algebra.Order.Ring.Abs
import Mathlib.Tactic.FieldSimp
import Mathlib.Tactic.Linarith
import Mathlib.Tactic.Positivity
import Mathlib.Tactic.Ring
import BalanceFit.Proofs.Scalar.Field
import BalanceFit.Proofs.System.Singular

/-!
# Sums of outer products as quadratic forms

The quadratic form of a sum of outer products is a sum of squares: each term contributes its
coefficient times the square of its row's product with the vector. A ridge contributes a multiple of
the square of the vector itself. With coefficients that are not negative nothing cancels, so the
form is zero only where every contribution is.

## Main definitions

* `Mat.mulVec`, `Mat.form` : a matrix times a vector, and its quadratic form
* `Design.product` : a design row times a vector

## Main statements

* `Design.form_gram`, `System.form_regularize` : the forms as sums of squares
* `Design.isSingular_regularize_iff` : when a sum of outer products with a ridge is singular
* `Design.mul_le_absTotal` : a ridge bounds the total of the matrix from below
-/

namespace BalanceFit

variable {K : Type} [Field K] {p : Nat}

/-- A matrix times a vector. -/
def Mat.mulVec (a : Mat K p p) (v : Fin p → K) (i : Fin p) : K := ∑ j, a i j * v j

/-- The quadratic form of a matrix. -/
def Mat.form (a : Mat K p p) (v : Fin p → K) : K := ∑ i, v i * a.mulVec v i

variable [LinearOrder K]

namespace Design

/-- The product of a row and a vector. -/
def product (x : Vec K p) (v : Fin p → K) : K := ∑ j, x j * v j

theorem dot_eq_product (x b : Vec K p) : x.dot b = product x (b ·) := Vec.dot_eq_sum x b

theorem product_sub (x : Vec K p) (v w : Fin p → K) :
    product x (v - w) = product x v - product x w := by
  rw [product, product, product, ← Finset.sum_sub_distrib]
  exact Finset.sum_congr rfl fun j _ => mul_sub _ _ _

theorem gram_symm (terms : List (Vec K p × K)) (i j : Fin p) :
    gram terms i j = gram terms j i := by
  rw [gram_apply, gram_apply]
  refine congrArg total (List.map_congr_left fun t _ => ?_)
  change t.1 i * (t.1 j * t.2) = t.1 j * (t.1 i * t.2)
  ring

theorem sum_moment_mul (terms : List (Vec K p × K)) (v : Fin p → K) :
    ∑ j, moment terms j * v j = (terms.map fun t => t.2 * product t.1 v).sum := by
  simp only [moment_apply, total_eq_sum]
  induction terms with
  | nil => simp only [List.map_nil, List.sum_nil, zero_mul, Finset.sum_const_zero]
  | cons t terms ih =>
    simp only [List.map_cons, List.sum_cons, add_mul, Finset.sum_add_distrib]
    rw [ih, product, Finset.mul_sum]
    congr 1
    refine Finset.sum_congr rfl fun j _ => ?_
    ring

/-- A sum of outer products takes a vector to a sum of the rows. -/
theorem mulVec_gram (terms : List (Vec K p × K)) (v : Fin p → K) (i : Fin p) :
    (gram terms).mulVec v i = moment (terms.map fun t => (t.1, t.2 * product t.1 v)) i := by
  rw [Mat.mulVec]
  simp only [gram_apply, moment_apply, total_eq_sum, List.map_map, Function.comp_def]
  induction terms with
  | nil => simp only [List.map_nil, List.sum_nil, zero_mul, Finset.sum_const_zero]
  | cons t terms ih =>
    simp only [List.map_cons, List.sum_cons, add_mul, Finset.sum_add_distrib]
    rw [ih, product, Finset.mul_sum, Finset.mul_sum]
    congr 1
    refine Finset.sum_congr rfl fun j _ => ?_
    ring

/-- A vector that is orthogonal to every row with a coefficient other than zero is taken to zero. -/
theorem mulVec_gram_eq_zero {terms : List (Vec K p × K)} {v : Fin p → K}
    (orthogonal : ∀ t ∈ terms, t.2 * product t.1 v = 0) : (gram terms).mulVec v = 0 := by
  funext i
  rw [mulVec_gram, moment_apply, total_eq_sum, List.map_map]
  refine List.sum_eq_zero fun x member => ?_
  obtain ⟨t, inside, rfl⟩ := List.mem_map.1 member
  change t.1 i * (t.2 * product t.1 v) = 0
  rw [orthogonal t inside, mul_zero]

theorem form_gram (terms : List (Vec K p × K)) (v : Fin p → K) :
    (gram terms).form v = (terms.map fun t => t.2 * product t.1 v ^ 2).sum := by
  calc
    (gram terms).form v = ∑ i, moment (terms.map fun t => (t.1, t.2 * product t.1 v)) i * v i :=
      Finset.sum_congr rfl fun i _ => by rw [mulVec_gram, mul_comm]
    _ = ((terms.map fun t => (t.1, t.2 * product t.1 v)).map fun t => t.2 * product t.1 v).sum :=
      sum_moment_mul _ v
    _ = (terms.map fun t => t.2 * product t.1 v ^ 2).sum := by
      rw [List.map_map]
      refine congrArg List.sum (List.map_congr_left fun t _ => ?_)
      change t.2 * product t.1 v * product t.1 v = _
      ring

end Design

namespace System

theorem mulVec_regularize (epsilon : K) (beta : Vec K p) (s : System K p) (v : Fin p → K)
    (i : Fin p) :
    (s.regularize epsilon beta).jacobian.mulVec v i =
      s.jacobian.mulVec v i + 2 * epsilon * v i := by
  have row (j : Fin p) : (s.regularize epsilon beta).jacobian i j * v j =
      s.jacobian i j * v j + if i = j then 2 * epsilon * v j else 0 := by
    rw [regularize_jacobian_apply]
    by_cases diagonal : i = j
    · rw [if_pos diagonal, if_pos diagonal]
      push_cast
      ring
    · rw [if_neg diagonal, if_neg diagonal, add_zero]
  rw [Mat.mulVec, Finset.sum_congr rfl fun j _ => row j, Finset.sum_add_distrib,
    Finset.sum_ite_eq, if_pos (Finset.mem_univ i)]
  rfl

theorem form_regularize (epsilon : K) (beta : Vec K p) (s : System K p) (v : Fin p → K) :
    (s.regularize epsilon beta).jacobian.form v =
      s.jacobian.form v + 2 * epsilon * ∑ i, v i ^ 2 := by
  rw [Mat.form, Mat.form, Finset.mul_sum, ← Finset.sum_add_distrib]
  refine Finset.sum_congr rfl fun i _ => ?_
  rw [mulVec_regularize]
  ring

end System

section Ordered

variable [IsStrictOrderedRing K] {terms : List (Vec K p × K)} {s : System K p} {epsilon : K}

namespace Design

theorem form_gram_nonneg (nonneg : ∀ t ∈ terms, 0 ≤ t.2) (v : Fin p → K) :
    0 ≤ (gram terms).form v := by
  rw [form_gram]
  exact List.sum_nonneg (List.forall_mem_map.2 fun t inside =>
    mul_nonneg (nonneg t inside) (sq_nonneg _))

/-- The form of a sum of outer products is zero only if the vector is orthogonal to every row with
a coefficient other than zero. -/
theorem mul_product_eq_zero (nonneg : ∀ t ∈ terms, 0 ≤ t.2) {v : Fin p → K}
    (zero : (gram terms).form v = 0) {t : Vec K p × K} (member : t ∈ terms) :
    t.2 * product t.1 v = 0 := by
  rw [form_gram] at zero
  have summands : ∀ x ∈ terms.map fun t => t.2 * product t.1 v ^ 2, 0 ≤ x :=
    List.forall_mem_map.2 fun t inside => mul_nonneg (nonneg t inside) (sq_nonneg _)
  have square : t.2 * product t.1 v ^ 2 = 0 :=
    List.all_zero_of_le_zero_le_of_sum_eq_zero summands zero (List.mem_map.2 ⟨t, member, rfl⟩)
  rcases mul_eq_zero.1 square with coefficient | orthogonal
  · rw [coefficient, zero_mul]
  · rw [pow_eq_zero_iff two_ne_zero] at orthogonal
    rw [orthogonal, mul_zero]

/-- **When a sum of outer products with a ridge is singular**: there is no ridge, and some vector
other than zero is orthogonal to every row with a coefficient other than zero. -/
theorem isSingular_regularize_iff (jacobian : s.jacobian = gram terms)
    (nonneg : ∀ t ∈ terms, 0 ≤ t.2) (ridge : 0 ≤ epsilon) (beta : Vec K p) :
    (s.regularize epsilon beta).jacobian.IsSingular ↔
      epsilon = 0 ∧ ∃ v : Fin p → K, v ≠ 0 ∧ ∀ t ∈ terms, t.2 * product t.1 v = 0 := by
  constructor
  · rintro ⟨v, nonzero, kernel⟩
    have form_zero : (s.regularize epsilon beta).jacobian.form v = 0 :=
      Finset.sum_eq_zero fun i _ => mul_eq_zero_of_right _ (kernel i)
    have length : 0 < ∑ i, v i ^ 2 := by
      obtain ⟨i, entry⟩ := Function.ne_iff.1 nonzero
      have square : 0 < v i ^ 2 := lt_of_le_of_ne (sq_nonneg _) (pow_ne_zero 2 entry).symm
      exact Finset.sum_pos' (fun j _ => sq_nonneg (v j)) ⟨i, Finset.mem_univ i, square⟩
    rw [System.form_regularize, jacobian] at form_zero
    have form_nonneg := form_gram_nonneg nonneg v
    -- Neither the form of the sum nor that of the ridge is negative, so both are zero.
    have no_ridge : epsilon = 0 := by
      by_contra other
      have positive : 0 < epsilon := lt_of_le_of_ne ridge (Ne.symm other)
      have : 0 < 2 * epsilon * ∑ i, v i ^ 2 := by positivity
      linarith
    rw [no_ridge, mul_zero, zero_mul, add_zero] at form_zero
    exact ⟨no_ridge, v, nonzero, fun t member => mul_product_eq_zero nonneg form_zero member⟩
  · rintro ⟨rfl, v, nonzero, orthogonal⟩
    refine ⟨v, nonzero, fun i => ?_⟩
    change (s.regularize 0 beta).jacobian.mulVec v i = 0
    rw [System.mulVec_regularize, jacobian, mulVec_gram_eq_zero orthogonal, mul_zero, zero_mul,
      add_zero]
    rfl

/-- A ridge bounds the total of the matrix from below: it is added to entries of the diagonal that
are not negative. -/
theorem mul_le_absTotal (jacobian : s.jacobian = gram terms) (nonneg : ∀ t ∈ terms, 0 ≤ t.2)
    (beta : Vec K p) : 2 * epsilon * p ≤ (s.regularize epsilon beta).jacobian.absTotal := by
  have diagonal (i : Fin p) : 2 * epsilon ≤ (s.regularize epsilon beta).jacobian i i := by
    have square : 0 ≤ s.jacobian i i := by
      rw [jacobian, gram_apply, total_eq_sum]
      refine List.sum_nonneg fun y member => ?_
      obtain ⟨⟨x, c⟩, inside, rfl⟩ := List.mem_map.1 member
      change 0 ≤ x i * (x i * c)
      rw [← mul_assoc]
      exact mul_nonneg (mul_self_nonneg _) (nonneg (x, c) inside)
    rw [System.regularize_jacobian_apply, if_pos rfl]
    push_cast
    linarith
  calc
    2 * epsilon * p = ∑ _i : Fin p, 2 * epsilon := by
      rw [Finset.sum_const, Finset.card_univ, Fintype.card_fin, nsmul_eq_mul, mul_comm]
    _ ≤ ∑ i, ∑ j, |(s.regularize epsilon beta).jacobian i j| := by
      refine Finset.sum_le_sum fun i _ => (diagonal i).trans ((le_abs_self _).trans ?_)
      exact Finset.single_le_sum (f := fun j => |(s.regularize epsilon beta).jacobian i j|)
        (fun j _ => abs_nonneg _) (Finset.mem_univ i)
    _ = _ := (Mat.absTotal_eq_sum _).symm

end Design

end Ordered

end BalanceFit
