import Mathlib.Algebra.Order.Ring.Abs
import Mathlib.Data.List.GetD
import Mathlib.Logic.Equiv.Fin.Basic
import BalanceFit.Proofs.Model.Basis
import BalanceFit.Proofs.Newton.Agreement

/-!
# Signed permutations of the coefficients

A signed permutation puts the entries of a vector in another order, and changes the signs of some of
them. It keeps lengths and sums of magnitudes. So if it takes the systems at all vectors to those at
the vectors it takes them to, it takes Newton's sequence to the sequence from the other start: no
test can tell the two sequences apart.

## Main definitions

* `SignedPerm` : the signed permutations, with `SignedPerm.apply` and `SignedPerm.matrix`
* `SignedPerm.extend` : further entries, which stay as they are

## Main statements

* `SignedPerm.scaledSolve_transformed` : signed permutations take steps to steps
* `Newton.stop?_transformed` : the tests do not tell the systems apart
* `Newton.firstStop_transformed` : so they take results to results
-/

namespace BalanceFit

open Matrix

/-- An order of `n` entries, and a sign for each of them. -/
structure SignedPerm (n : Nat) where
  /-- Where the entry at an index comes from. -/
  source : Equiv.Perm (Fin n)
  /-- The sign that it gets. -/
  sign : Fin n → ℤˣ

namespace SignedPerm

variable {K : Type} [Field K] {n m : Nat} (π : SignedPerm n)

/-- The sign as a number. -/
def factor (i : Fin n) : K := ((π.sign i : ℤ) : K)

/-- The vector with its entries in the new order, and with their new signs. -/
def apply (v : Vec K n) : Vec K n := .ofFn fun i => π.factor i * v (π.source i)

/-- The same for a list, as far as it has that many entries. -/
def applyList (l : List K) : List K := (π.apply (.ofListPadded n l)).toList

@[simp] theorem applyList_toList (v : Vec K n) : π.applyList v.toList = (π.apply v).toList := by
  rw [applyList, Vec.ofListPadded_toList]

@[simp] theorem apply_apply (v : Vec K n) (i : Fin n) :
    π.apply v i = π.factor i * v (π.source i) :=
  Vec.ofFn_apply _ i

variable (K) in
/-- The matrix of a signed permutation: in each row there is a sign, and zeros. -/
def matrix : Matrix (Fin n) (Fin n) K :=
  Matrix.of fun i j => if π.source i = j then π.factor i else 0

theorem factor_mul_self (i : Fin n) : π.factor i * π.factor i = (1 : K) := by
  rcases Int.units_eq_one_or (π.sign i) with plus | minus
  · simp [factor, plus]
  · simp [factor, minus]

theorem matrix_mulVec (v : Fin n → K) (i : Fin n) :
    (π.matrix K *ᵥ v) i = π.factor i * v (π.source i) := by
  simp only [mulVec, dotProduct, matrix, Matrix.of_apply, ite_mul, zero_mul]
  rw [Finset.sum_ite_eq, if_pos (Finset.mem_univ _)]

/-- A signed permutation as a change of the basis. -/
theorem transformed_matrix (v : Vec K n) : v.transformed (π.matrix K) = π.apply v := by
  ext i
  rw [Vec.transformed_apply, matrix_mulVec, apply_apply]

/-- A product with the matrix on the left takes rows from where they come from. -/
theorem matrix_mul_apply (a : Matrix (Fin n) (Fin n) K) (i j : Fin n) :
    (π.matrix K * a) i j = π.factor i * a (π.source i) j := by
  rw [Matrix.mul_apply]
  exact π.matrix_mulVec (fun k => a k j) i

theorem transformed_entry (a : Mat K n n) (i j : Fin n) :
    a.transformed (π.matrix K) i j = π.factor i * π.factor j * a (π.source i) (π.source j) := by
  have transposed (b : Matrix (Fin n) (Fin n) K) :
      (b * (π.matrix K)ᵀ) i j = (π.matrix K * bᵀ) j i := by
    rw [← Matrix.transpose_apply (b * (π.matrix K)ᵀ), Matrix.transpose_mul,
      Matrix.transpose_transpose]
  rw [Mat.transformed, Mat.ofFn_apply, transposed, matrix_mul_apply, Matrix.transpose_apply,
    matrix_mul_apply, Mat.toMatrix_apply]
  ring

/-- Signed permutations keep lengths. -/
theorem matrix_mul_transpose : π.matrix K * (π.matrix K)ᵀ = 1 := by
  ext i j
  rw [matrix_mul_apply, Matrix.transpose_apply, matrix, Matrix.of_apply, Matrix.one_apply]
  by_cases same : i = j
  · rw [same, if_pos rfl, if_pos rfl, factor_mul_self]
  · rw [if_neg same, if_neg fun equal => same (π.source.injective equal).symm, mul_zero]

theorem det_matrix_ne_zero : (π.matrix K).det ≠ 0 := by
  intro singular
  have unit := congrArg det (π.matrix_mul_transpose (K := K))
  rw [det_mul, singular, zero_mul, det_one] at unit
  exact zero_ne_one unit

theorem inv_transpose_matrix : (π.matrix K)ᵀ⁻¹ = π.matrix K :=
  Matrix.inv_eq_left_inv π.matrix_mul_transpose

theorem transpose_mulVec_apply (v : Vec K n) : (π.matrix K)ᵀ *ᵥ (π.apply v ·) = (v ·) := by
  have applied : (π.apply v ·) = π.matrix K *ᵥ (v ·) := by
    funext i
    rw [matrix_mulVec, apply_apply]
  rw [applied, mulVec_mulVec, mul_eq_one_comm.1 π.matrix_mul_transpose, one_mulVec]

section Extend

variable (m : Nat)

/-- Further entries, which stay as they are. -/
def extend : SignedPerm (n + m) where
  source := finSumFinEquiv.permCongr (Equiv.Perm.sumCongr π.source 1)
  sign := Fin.append π.sign fun _ => 1

@[simp] theorem extend_apply_castAdd (v : Vec K (n + m)) (i : Fin n) :
    (π.extend m).apply v (i.castAdd m) = π.factor i * v ((π.source i).castAdd m) := by
  have source : (π.extend m).source (i.castAdd m) = (π.source i).castAdd m := by
    simp [extend, Equiv.permCongr_apply]
  have sign : (π.extend m).sign (i.castAdd m) = π.sign i := Fin.append_left π.sign (fun _ => 1) i
  rw [apply_apply, source, factor, sign, factor]

@[simp] theorem extend_apply_natAdd (v : Vec K (n + m)) (j : Fin m) :
    (π.extend m).apply v (j.natAdd n) = v (j.natAdd n) := by
  have source : (π.extend m).source (j.natAdd n) = j.natAdd n := by
    simp [extend, Equiv.permCongr_apply]
  have sign : (π.extend m).sign (j.natAdd n) = 1 := Fin.append_right π.sign (fun _ => 1) j
  rw [apply_apply, source, factor, sign, Units.val_one, Int.cast_one, one_mul]

/-- The entries of a list that are too many for the signed permutation are further entries. -/
theorem extend_apply_append (v : Vec K n) (l : List K) :
    (π.extend m).apply (.ofListPadded (n + m) (v.toList ++ l)) =
      .ofListPadded (n + m) ((π.apply v).toList ++ l) := by
  have front (v : Vec K n) (i : Fin n) : (v.toList ++ l).getD i 0 = v i := by
    rw [List.getD_append _ _ _ _ (by rw [v.length_toList]; exact i.isLt),
      ← Vec.ofListPadded_apply v.toList, Vec.ofListPadded_toList]
  ext i
  refine Fin.addCases (fun i => ?_) (fun j => ?_) i
  · rw [extend_apply_castAdd, Vec.ofListPadded_apply, Vec.ofListPadded_apply]
    exact (congrArg _ (front v _)).trans ((π.apply_apply v i).symm.trans (front _ i).symm)
  · have behind (v : Vec K n) : v.toList.length ≤ j.natAdd n := by
      rw [v.length_toList]
      exact Nat.le_add_right n j
    rw [extend_apply_natAdd, Vec.ofListPadded_apply, Vec.ofListPadded_apply,
      List.getD_append_right _ _ _ _ (behind v), List.getD_append_right _ _ _ _ (behind _),
      v.length_toList, Vec.length_toList]

end Extend

theorem apply_sub (v w : Vec K n) :
    Vec.zipWith (· - ·) (π.apply v) (π.apply w) = π.apply (Vec.zipWith (· - ·) v w) := by
  ext i
  simp only [Vec.zipWith_apply, apply_apply, mul_sub]

section Totals

variable [LinearOrder K] [IsStrictOrderedRing K]

theorem abs_factor (i : Fin n) : |(π.factor i : K)| = 1 := by
  rw [factor, ← Int.cast_abs, Int.isUnit_iff_abs_eq.1 (π.sign i).isUnit, Int.cast_one]

/-- Signed permutations keep sums of magnitudes. -/
theorem absTotal_apply (v : Vec K n) : (π.apply v).absTotal = v.absTotal := by
  simp only [Vec.absTotal_eq_sum, apply_apply, abs_mul, abs_factor, one_mul]
  exact Equiv.sum_comp π.source fun i => |v i|

theorem absTotal_transformed (a : Mat K n n) :
    (a.transformed (π.matrix K)).absTotal = a.absTotal := by
  simp only [Mat.absTotal_eq_sum, transformed_entry, abs_mul, abs_factor, one_mul]
  calc
    ∑ i, ∑ j, |a (π.source i) (π.source j)| = ∑ i, ∑ j, |a (π.source i) j| :=
      Finset.sum_congr rfl fun i _ => Equiv.sum_comp π.source fun j => |a (π.source i) j|
    _ = ∑ i, ∑ j, |a i j| := Equiv.sum_comp π.source fun i => ∑ j, |a i j|

/-- **Signed permutations take steps to steps**: the factor of the scaling is the same. -/
theorem scaledSolve_transformed (s : System K n) :
    (s.transformed (π.matrix K)).scaledSolve = s.scaledSolve.map π.apply := by
  have total : (s.transformed (π.matrix K)).jacobian.absTotal = s.jacobian.absTotal :=
    π.absTotal_transformed s.jacobian
  have applied : Vec.transformed ((π.matrix K)ᵀ)⁻¹ = π.apply := by
    rw [inv_transpose_matrix]
    exact funext π.transformed_matrix
  rw [System.scaledSolve, System.scaledSolve, total, System.apply_transformed, ← applied]
  exact LinearSolve.ofMatrix_transformed π.det_matrix_ne_zero _

end Totals

end SignedPerm

namespace Newton

variable {K : Type} [Field K] [LinearOrder K] [IsStrictOrderedRing K] {n : Nat}
  {config : Config K} (π : SignedPerm n)

/-- The tests compare sums of magnitudes. -/
theorem stop?_transformed (s : System K n) :
    stop? config (s.transformed (π.matrix K)) = stop? config s := by
  have balance : (s.transformed (π.matrix K)).balance.absTotal = s.balance.absTotal := by
    rw [System.transformed, π.transformed_matrix, π.absTotal_apply]
  have jacobian : (s.transformed (π.matrix K)).jacobian.absTotal = s.jacobian.absTotal :=
    π.absTotal_transformed s.jacobian
  rw [stop?, stop?, balance, jacobian, π.scaledSolve_transformed]
  obtain ⟨solution, reason⟩ := s.scaledSolve
  cases reason with
  | some reason => rfl
  | none =>
    cases solution with
    | none => rfl
    | some delta =>
      simp only [LinearSolve.map, Option.map_some, π.absTotal_apply]

variable {system system' : Vec K n → System K n}
  (corresponding : ∀ b, system' (π.apply b) = (system b).transformed (π.matrix K))
  (start : Vec K n)

include corresponding

/-- The sequence from the other start. -/
theorem ideal_transformed (k : Nat) :
    ideal system' (π.apply start) k = π.apply (ideal system start k) := by
  induction k with
  | zero => rfl
  | succ k ih =>
    rw [ideal, ideal, ih, corresponding, π.scaledSolve_transformed, LinearSolve.map]
    cases (system (ideal system start k)).scaledSolve.solution with
    | none => rfl
    | some delta => exact π.apply_sub _ delta

theorem stoppedAt_transformed (outcome : Outcome) (i steps : Nat) :
    stoppedAt config system' (π.apply start) outcome i steps =
      (stoppedAt config system start outcome i steps).map π.apply := by
  have sequence : ideal system' (π.apply start) = fun k => π.apply (ideal system start k) :=
    funext (ideal_transformed π corresponding start)
  have balance (b : Vec K n) :
      (system' (π.apply b)).balance.absTotal = (system b).balance.absTotal := by
    rw [corresponding, System.transformed, π.transformed_matrix, π.absTotal_apply]
  rw [stoppedAt, stoppedAt, FitResult.map, sequence, balance]
  congr 1
  cases config.history with
  | false => rfl
  | true => exact congrArg some (List.comp_map π.apply (ideal system start) _)

/-- **Signed permutations take results to results.** Along the two sequences the tests say the same,
so both searches end at the same index. -/
theorem firstStop_transformed :
    firstStop config system' (π.apply start) = (firstStop config system start).map π.apply := by
  have tests (k : Nat) : stop? config (system' (ideal system' (π.apply start) k)) =
      stop? config (system (ideal system start k)) := by
    rw [ideal_transformed π corresponding, corresponding, stop?_transformed]
  rcases firstStop_cases config system start with ⟨k, outcome, steps, bound, going, stops⟩ | going
  · rw [firstStop_of_stop bound going stops, ← stoppedAt_transformed π corresponding]
    exact firstStop_of_stop bound (fun i before => (tests i).trans (going i before))
      ((tests k).trans stops)
  · rw [firstStop_of_forall_none going, ← stoppedAt_transformed π corresponding]
    exact firstStop_of_forall_none fun i before => (tests i).trans (going i before)

end Newton

end BalanceFit
