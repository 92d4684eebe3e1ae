import Mathlib.Algebra.BigOperators.Field
import Mathlib.Algebra.BigOperators.Fin
import Mathlib.Algebra.Order.Field.Basic
import Mathlib.LinearAlgebra.Matrix.ToLinearEquiv
import Mathlib.Tactic.FieldSimp
import Mathlib.Tactic.LinearCombination
import Mathlib.Tactic.Ring
import BalanceFit.Proofs.Model.Gram
import BalanceFit.Proofs.Newton.FirstStop

/-!
# Solutions solve

In exact arithmetic what a solve returns is a solution: elimination keeps the equations of the
smaller system and determines the first unknown by the first equation. The common factor of both
sides is not zero and regular systems have one solution, so a Newton step is the solution of the
system as it was before it was scaled.

## Main definitions

* `Mat.toMatrix` : a matrix of this library as one of Mathlib

## Main statements

* `Elimination.sum_mul_of_solve?`, `Diagonal.sum_mul_of_solve?` : solutions satisfy the equations
* `LinearSolve.ofMatrix_eq_map` : solves correspond as their solutions do
* `LinearSolve.ofMatrix_map_mul` : a common factor of both sides makes no difference to a solve
* `System.newtonStep_apply` : so a scaled system has the same step, or fails for the same reason
* `System.mulVec_of_newtonStep`, `System.mulVec_of_scaledSolve` : the step of a system satisfies its
  equations
* `System.exists_scaledSolve` : a system with a regular Jacobian has a step
* `Mat.isSingular_iff_det_eq_zero` : singular matrices are those with determinant zero
-/

namespace BalanceFit

/-- The matrix with the same entries. -/
def Mat.toMatrix {α : Type} {m n : Nat} (a : Mat α m n) : Matrix (Fin m) (Fin n) α :=
  Matrix.of fun i j => a i j

@[simp] theorem Mat.toMatrix_apply {α : Type} {m n : Nat} (a : Mat α m n) (i : Fin m) (j : Fin n) :
    a.toMatrix i j = a i j :=
  rfl

section Determinant

variable {K : Type} [Field K] {n : Nat}

theorem Mat.mulVec_toMatrix (a : Mat K n n) (v : Fin n → K) :
    a.toMatrix.mulVec v = a.mulVec v :=
  rfl

theorem Mat.isSingular_iff_det_eq_zero {a : Mat K n n} : a.IsSingular ↔ a.toMatrix.det = 0 := by
  rw [← Matrix.exists_mulVec_eq_zero_iff]
  refine exists_congr fun v => and_congr_right fun _ => ?_
  rw [funext_iff]
  exact Iff.rfl

end Determinant

variable {K : Type} [Field K] [LinearOrder K] {n k l : Nat}

namespace Elimination

open Vec (first)

/-- Elimination yields a solution of every equation. The induction is on the size: a solution of the
smaller system and the first unknowns that go with it satisfy the equations of the larger one. -/
theorem sum_mul_of_solve? {a : Mat K n n} {b x : Mat K n k} (solved : solve? a b = some x)
    (i : Fin n) (c : Fin k) : ∑ j, a i j * x j c = b i c := by
  induction n with
  | zero => exact i.elim0
  | succ n ih =>
    rw [solve?] at solved
    split at solved
    case isTrue => cases solved
    case isFalse nonzero =>
      obtain ⟨y, smaller, rfl⟩ := Option.map_eq_some_iff.1 solved
      generalize pivot a.firstColumn = r at nonzero smaller
      -- The equations of the system whose rows have been exchanged.
      have equations (l : Fin (n + 1)) : ∑ j, (a.swap first r) l j *
          (Vec.cons (firstUnknowns (a.swap first r) (b.swap first r) y) y) j c =
            (b.swap first r) l c := by
        generalize a.swap first r = a' at nonzero smaller ⊢
        generalize b.swap first r = b' at smaller ⊢
        have corner : a' 0 0 ≠ 0 := mt Scalar.isZero_iff.2 nonzero
        -- The first unknowns are chosen so that the first equation holds.
        have head :
            a' 0 0 * firstUnknowns a' b' y c + ∑ j : Fin n, a' 0 j.succ * y j c = b' 0 c := by
          rw [firstUnknowns, Vec.ofFn_apply, Vec.foldl_add_eq_sum, zero_add, Vec.first_eq_zero,
            mul_div_cancel₀ _ corner, sub_add_cancel]
        rw [Fin.sum_univ_succ]
        simp only [Vec.cons_zero, Vec.cons_succ]
        refine Fin.cases head (fun l => ?_) l
        -- An equation of the smaller system is one of these less a multiple of the first.
        have row := ih smaller l
        simp only [reduceMatrix, reduceSides, Mat.ofFn_apply, Vec.first_eq_zero, sub_mul,
          Finset.sum_sub_distrib, mul_assoc, ← Finset.mul_sum] at row
        rw [← eq_sub_iff_add_eq'] at head
        rw [head] at row
        have cancelled : a' l.succ 0 / a' 0 0 * a' 0 0 = a' l.succ 0 := div_mul_cancel₀ _ corner
        linear_combination row - firstUnknowns a' b' y c * cancelled
      have at_i := equations (Equiv.swap first r i)
      rwa [Vec.swap_eq_apply, Vec.swap_eq_apply, Equiv.swap_apply_self] at at_i

end Elimination

/-- Reciprocals of the diagonal yield a solution of every equation. -/
theorem Diagonal.sum_mul_of_solve? {a : Mat K n n} {b x : Mat K n k}
    (diagonal : a.isDiagonal = true) (solved : Diagonal.solve? a b = some x) (i : Fin n)
    (c : Fin k) : ∑ j, a i j * x j c = b i c := by
  rw [Diagonal.solve?] at solved
  split at solved
  case isFalse => cases solved
  case isTrue regular =>
    cases solved
    have nonzero : a i i ≠ 0 := Diagonal.all_ne_zero_iff.1 regular i
    rw [Finset.sum_eq_single i]
    · rw [Mat.ofFn_apply, Mat.diagonal_apply]
      field_simp
    · intro j _ other
      rw [Mat.eq_zero_of_isDiagonal diagonal other.symm, zero_mul]
    · exact fun missing => absurd (Finset.mem_univ i) missing

/-- What a solve returns is a solution. -/
theorem LinearSolve.sum_mul_of_ofMatrix {a : Mat K n n} {b x : Mat K n k}
    (solved : (ofMatrix a b).solution = some x) (i : Fin n) (c : Fin k) :
    ∑ j, a i j * x j c = b i c := by
  rw [ofMatrix] at solved
  generalize found : (if 1 < n && a.isDiagonal then Diagonal.solve? a b
    else Elimination.solve? a b) = y at solved
  cases y with
  | none => cases solved
  | some y =>
    rw [judge, if_pos y.isFinite_eq_true] at solved
    cases solved
    split at found
    case isTrue chosen =>
      rw [Bool.and_eq_true] at chosen
      exact Diagonal.sum_mul_of_solve? chosen.2 found i c
    case isFalse => exact Elimination.sum_mul_of_solve? found i c

/-- A regular system has at most one solution. -/
theorem Mat.eq_of_sum_mul_eq {a : Mat K n n} (regular : ¬ a.IsSingular) {x y : Mat K n k}
    (same : ∀ i c, ∑ j, a i j * x j c = ∑ j, a i j * y j c) : x = y := by
  by_contra different
  -- In some column the solutions differ, and the matrix takes the difference there to zero.
  obtain ⟨c, column⟩ : ∃ c, (fun j => x j c - y j c) ≠ 0 := by
    by_contra equal
    simp only [not_exists, not_not] at equal
    apply different
    ext j c
    exact sub_eq_zero.1 (congrFun (equal c) j)
  refine regular ⟨_, column, fun i => ?_⟩
  simp only [mul_sub, Finset.sum_sub_distrib, same i c, sub_self]

variable [IsStrictOrderedRing K]

/-- Two systems have corresponding solves if they are singular together and a function takes the
solutions of one of them to those of the other one. -/
theorem LinearSolve.ofMatrix_eq_map {a a' : Mat K n n} {b : Mat K n k} {b' : Mat K n l}
    (f : Mat K n k → Mat K n l) (kernels : a'.IsSingular ↔ a.IsSingular)
    (solutions : ∀ x : Mat K n k, (∀ i c, ∑ j, a i j * x j c = b i c) →
      ∀ i c, ∑ j, a' i j * f x j c = b' i c) :
    ofMatrix a' b' = (ofMatrix a b).map f := by
  rcases ofMatrix_cases a b with ⟨⟨x, solved⟩, regular⟩ | ⟨failed, singular⟩
  · rcases ofMatrix_cases a' b' with ⟨⟨y, solved'⟩, regular'⟩ | ⟨-, singular'⟩
    · have same : y = f x := by
        refine Mat.eq_of_sum_mul_eq regular' fun i c => ?_
        rw [sum_mul_of_ofMatrix (congrArg solution solved') i c]
        exact (solutions x (sum_mul_of_ofMatrix (congrArg solution solved)) i c).symm
      rw [solved, solved', same]
      rfl
    · exact absurd (kernels.1 singular') regular
  · rcases ofMatrix_cases a' b' with ⟨-, regular'⟩ | ⟨failed', -⟩
    · exact absurd (kernels.2 singular) regular'
    · rw [failed, failed']
      rfl

/-- A common factor of both sides makes no difference to a solve: the scaled matrix is singular
exactly if the matrix is, and otherwise both solves return the only solution. -/
theorem LinearSolve.ofMatrix_map_mul {c : K} (nonzero : c ≠ 0) (a : Mat K n n) (b : Mat K n k) :
    ofMatrix (Vec.map (Vec.map (· * c)) a) (Vec.map (Vec.map (· * c)) b) = ofMatrix a b := by
  have same : ofMatrix (Vec.map (Vec.map (· * c)) a) (Vec.map (Vec.map (· * c)) b) =
      (ofMatrix a b).map id := by
    refine ofMatrix_eq_map id (Mat.isSingular_map_mul_iff nonzero) fun x equations i l => ?_
    rw [id_eq, Mat.sum_map_mul a c (x · l), equations, Vec.map_apply, Vec.map_apply]
  rw [same, map, Option.map_id_fun]
  rfl

namespace System

variable {s : System K n} {delta : Vec K n}

theorem ofMatrix_apply {c : Scaling K} (nonzero : c.factor ≠ 0) (s : System K n) :
    LinearSolve.ofMatrix (c.apply s).jacobian (.column (c.apply s).balance) =
      LinearSolve.ofMatrix s.jacobian (.column s.balance) := by
  have sides : Mat.column (c.apply s).balance =
      Vec.map (Vec.map (· * c.factor)) (Mat.column s.balance) := by
    ext i j
    simp only [Mat.column, Mat.ofFn_apply, Vec.map_apply, Scaling.apply_balance_apply]
  rw [sides, Scaling.apply, LinearSolve.ofMatrix_map_mul nonzero]

/-- A scaled system has the same step, or fails for the same reason. -/
theorem newtonStep_apply {c : Scaling K} (nonzero : c.factor ≠ 0) (s : System K n) :
    (c.apply s).newtonStep = s.newtonStep := by
  cases n with
  | zero => rfl
  | succ n => rw [newtonStep, newtonStep, ofMatrix_apply nonzero]

omit [IsStrictOrderedRing K] in
/-- What the solve of a system finds is a solution of it. -/
theorem mulVec_of_ofMatrix
    (solved : ((LinearSolve.ofMatrix s.jacobian (.column s.balance)).map
      Mat.firstColumn).solution = some delta) (i : Fin n) :
    s.jacobian.mulVec delta i = s.balance i := by
  obtain ⟨x, found, rfl⟩ := Option.map_eq_some_iff.1 solved
  have equation := LinearSolve.sum_mul_of_ofMatrix found i 0
  rw [Mat.column, Mat.ofFn_apply] at equation
  rw [← equation, Mat.mulVec]
  refine Finset.sum_congr rfl fun j _ => ?_
  rw [Mat.firstColumn, Vec.ofFn_apply, Vec.first_eq_zero]

omit [IsStrictOrderedRing K] in
theorem mulVec_of_newtonStep {reason : Option Divergence}
    (solved : s.newtonStep = .ok ⟨some delta, reason⟩) (i : Fin n) :
    s.jacobian.mulVec delta i = s.balance i := by
  cases n with
  | zero => exact i.elim0
  | succ n => exact mulVec_of_ofMatrix (congrArg LinearSolve.solution (Except.ok.inj solved)) i

/-- The step of a system is a solution of it. -/
theorem mulVec_of_scaledSolve (total : s.jacobian.absTotal ≠ 0)
    (solved : s.scaledSolve.solution = some delta) (i : Fin n) :
    s.jacobian.mulVec delta i = s.balance i := by
  rw [scaledSolve, ofMatrix_apply (Mat.div_absTotal_ne_zero total)] at solved
  exact mulVec_of_ofMatrix solved i

/-- A system with a regular Jacobian has a step. -/
theorem exists_scaledSolve (total : s.jacobian.absTotal ≠ 0) (regular : ¬ s.jacobian.IsSingular) :
    ∃ delta, s.scaledSolve = ⟨some delta, none⟩ := by
  rw [scaledSolve, ofMatrix_apply (Mat.div_absTotal_ne_zero total)]
  rcases LinearSolve.ofMatrix_cases s.jacobian (.column s.balance) with
    ⟨⟨x, solved⟩, -⟩ | ⟨-, singular⟩
  · rw [solved]
    exact ⟨x.firstColumn, rfl⟩
  · exact absurd singular regular

end System

end BalanceFit
