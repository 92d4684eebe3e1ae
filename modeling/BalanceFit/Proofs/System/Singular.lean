import Mathlib.Algebra.BigOperators.Field
import Mathlib.Algebra.BigOperators.Fin
import Mathlib.Algebra.Order.Field.Basic
import Mathlib.Algebra.Order.Ring.Abs
import Mathlib.Tactic.FieldSimp
import Mathlib.Tactic.Ring
import BalanceFit.Proofs.Scalar.Field
import BalanceFit.System.Scaling
import BalanceFit.System.Solution

/-!
# Which systems have no solution

In exact arithmetic elimination gives up on a matrix exactly if the matrix takes some vector other
than zero to zero. The pivot is the largest entry of the first column, so it is zero only if the
whole column is; otherwise the vectors that the matrix takes to zero are those that the smaller
matrix does, each with one more entry in front.

## Main definitions

* `Mat.IsSingular` : the matrices that take some vector other than zero to zero

## Main statements

* `Elimination.solve?_eq_none_iff`, `Diagonal.solve?_eq_none_iff` : the solves fail for these alone
* `Mat.isSingular_map_mul_iff` : a common factor makes no difference
* `System.exists_newtonStep_apply` : so the solve for a step, too, fails for singular Jacobians
  alone
-/

namespace BalanceFit

/-- After an exchange the entries are those at the exchanged places. -/
theorem Vec.swap_eq_apply {α : Type} {n : Nat} (v : Vec α n) (r s i : Fin n) :
    v.swap r s i = v (Equiv.swap r s i) := by
  rw [swap_apply, Equiv.swap_apply_def]
  split
  · rfl
  · split <;> rfl

section Kernel

variable {K : Type} [Field K] {n : Nat}

/-- A square matrix is singular if it takes some vector other than zero to zero. -/
def Mat.IsSingular (a : Mat K n n) : Prop :=
  ∃ v : Fin n → K, v ≠ 0 ∧ ∀ i, ∑ j, a i j * v j = 0

theorem Mat.not_isSingular_empty (a : Mat K 0 0) : ¬ a.IsSingular := by
  rintro ⟨v, nonzero, -⟩
  exact nonzero (Subsingleton.elim v 0)

/-- A matrix with a column of zeros is singular. -/
theorem Mat.isSingular_of_column {a : Mat K n n} {j : Fin n} (zeros : ∀ i, a i j = 0) :
    a.IsSingular := by
  refine ⟨Pi.single j 1, Pi.single_ne_zero_iff.2 one_ne_zero, fun i => ?_⟩
  rw [Finset.sum_eq_single j]
  · rw [zeros, zero_mul]
  · intro l _ other
    rw [Pi.single_eq_of_ne other, mul_zero]
  · intro missing
    exact absurd (Finset.mem_univ j) missing

/-- Exchanging two rows makes no difference. -/
theorem Mat.isSingular_swap_iff {a : Mat K n n} {r s : Fin n} :
    Mat.IsSingular (a.swap r s) ↔ a.IsSingular := by
  refine exists_congr fun v => and_congr_right fun _ => ?_
  constructor
  · intro kernel i
    have at_i := kernel (Equiv.swap r s i)
    rwa [Vec.swap_eq_apply, Equiv.swap_apply_self] at at_i
  · intro kernel i
    rw [Vec.swap_eq_apply]
    exact kernel (Equiv.swap r s i)

/-- A factor of the matrix is a factor of every product. -/
theorem Mat.sum_map_mul (a : Mat K n n) (c : K) (v : Fin n → K) (i : Fin n) :
    ∑ j, (Vec.map (Vec.map (· * c)) a) i j * v j = (∑ j, a i j * v j) * c := by
  rw [Finset.sum_mul]
  refine Finset.sum_congr rfl fun j _ => ?_
  rw [Vec.map_apply, Vec.map_apply, mul_right_comm]

/-- A factor other than zero makes no difference. -/
theorem Mat.isSingular_map_mul_iff {a : Mat K n n} {c : K} (nonzero : c ≠ 0) :
    Mat.IsSingular (Vec.map (Vec.map (· * c)) a) ↔ a.IsSingular := by
  refine exists_congr fun v => and_congr_right fun _ => forall_congr' fun i => ?_
  rw [Mat.sum_map_mul, mul_eq_zero, or_iff_left nonzero]

end Kernel

variable {K : Type} [Field K] [LinearOrder K] {n k : Nat}

namespace Elimination

open Vec (first)

/-- Below a pivot other than zero the smaller matrix takes just as little to zero. -/
theorem isSingular_reduceMatrix_iff {a : Mat K (n + 1) (n + 1)} (pivot : a first first ≠ 0) :
    (reduceMatrix a).IsSingular ↔ a.IsSingular := by
  -- A row of the smaller matrix is a row of the larger one less a multiple of its first row.
  have row (v : Fin n → K) (i : Fin n) :
      ∑ j, reduceMatrix a i j * v j =
        ∑ j, a i.succ j.succ * v j - a i.succ 0 / a 0 0 * ∑ j : Fin n, a 0 j.succ * v j := by
    rw [Finset.mul_sum, ← Finset.sum_sub_distrib]
    refine Finset.sum_congr rfl fun j _ => ?_
    rw [reduceMatrix, Mat.ofFn_apply, Vec.first_eq_zero]
    ring
  rw [Vec.first_eq_zero] at pivot
  constructor
  · -- The first equation gives the entry in front.
    rintro ⟨v, nonzero, kernel⟩
    let head := -(∑ j : Fin n, a 0 j.succ * v j) / a 0 0
    have cleared : a 0 0 * head = -∑ j : Fin n, a 0 j.succ * v j := mul_div_cancel₀ _ pivot
    refine ⟨Fin.cons head v, fun zero => nonzero ?_, Fin.forall_fin_succ.2 ⟨?_, fun i => ?_⟩⟩
    · funext j
      exact congrFun zero j.succ
    · rw [Fin.sum_univ_succ]
      simp only [Fin.cons_zero, Fin.cons_succ]
      rw [cleared, neg_add_cancel]
    · have at_i := kernel i
      rw [row] at at_i
      rw [Fin.sum_univ_succ]
      simp only [Fin.cons_zero, Fin.cons_succ]
      have first_term : a i.succ 0 * head = -(a i.succ 0 / a 0 0 * ∑ j : Fin n, a 0 j.succ * v j) := by
        simp only [head]
        ring
      rw [first_term, neg_add_eq_sub, at_i]
  · -- If the other entries were zero, the first equation would make the first one zero, too.
    rintro ⟨w, nonzero, kernel⟩
    refine ⟨fun j => w j.succ, fun zero => nonzero ?_, fun i => ?_⟩
    · have top := kernel 0
      rw [Fin.sum_univ_succ] at top
      have rest (j : Fin n) : w j.succ = 0 := congrFun zero j
      simp only [rest, mul_zero, Finset.sum_const_zero, add_zero] at top
      have head : w 0 = 0 := (mul_eq_zero.1 top).resolve_left pivot
      funext j
      exact Fin.cases head rest j
    · have top := kernel 0
      have at_i := kernel i.succ
      rw [Fin.sum_univ_succ] at top at_i
      rw [row, eq_neg_of_add_eq_zero_right top, eq_neg_of_add_eq_zero_right at_i]
      field_simp
      ring

/-- The pivot is largest in magnitude. -/
theorem abs_le_abs_pivot (column : Vec K (n + 1)) (i : Fin (n + 1)) :
    |column i| ≤ |column (pivot column)| := by
  -- The search may begin at any position, and go through any others.
  have search {m : Nat} (c : Fin m → Fin (n + 1)) (b : Fin (n + 1)) :
      let r := Fin.foldl m (fun best i =>
        if Scalar.lt (Scalar.abs (column best)) (Scalar.abs (column (c i))) then c i else best) b
      |column b| ≤ |column r| ∧ ∀ i, |column (c i)| ≤ |column r| := by
    induction m generalizing b with
    | zero => exact ⟨le_rfl, fun i => i.elim0⟩
    | succ m ih =>
      intro r
      by_cases larger : |column b| < |column (c 0)|
      · have step : r = Fin.foldl m _ (c 0) :=
          (Fin.foldl_succ _ _).trans (congrArg _ (if_pos (Scalar.lt_iff.2 larger)))
        obtain ⟨start, rest⟩ := ih (fun i => c i.succ) (c 0)
        rw [step]
        exact ⟨larger.le.trans start, Fin.forall_fin_succ.2 ⟨start, rest⟩⟩
      · have step : r = Fin.foldl m _ b :=
          (Fin.foldl_succ _ _).trans (congrArg _ (if_neg (mt Scalar.lt_iff.1 larger)))
        obtain ⟨start, rest⟩ := ih (fun i => c i.succ) b
        rw [step]
        exact ⟨start, Fin.forall_fin_succ.2 ⟨(not_lt.1 larger).trans start, rest⟩⟩
  obtain ⟨start, rest⟩ := search Fin.succ first
  exact Fin.cases (motive := fun i => |column i| ≤ |column (pivot column)|) start rest i

variable [IsStrictOrderedRing K]

/-- **Elimination fails exactly on singular matrices.** -/
theorem solve?_eq_none_iff {a : Mat K n n} {b : Mat K n k} :
    solve? a b = none ↔ a.IsSingular := by
  induction n with
  | zero => exact iff_of_false nofun a.not_isSingular_empty
  | succ n ih =>
    rw [← Mat.isSingular_swap_iff (r := first) (s := pivot a.firstColumn), solve?]
    by_cases zero : Scalar.isZero ((a.swap first (pivot a.firstColumn)) first first) = true
    · -- The pivot is the largest entry of its column, so the whole column is zero.
      rw [if_pos zero]
      refine iff_of_true rfl (Mat.isSingular_swap_iff.2 (Mat.isSingular_of_column (j := 0) ?_))
      intro i
      rw [Scalar.isZero_iff, Vec.swap_apply, if_pos rfl] at zero
      have bound := abs_le_abs_pivot a.firstColumn i
      simp only [Mat.firstColumn, Vec.ofFn_apply] at bound zero
      rw [zero, abs_zero] at bound
      exact abs_eq_zero.1 (le_antisymm bound (abs_nonneg _))
    · rw [if_neg zero, Option.map_eq_none_iff, ih]
      exact isSingular_reduceMatrix_iff (mt Scalar.isZero_iff.2 zero)

end Elimination

/-- Off the diagonal of a diagonal matrix there are zeros. -/
theorem Mat.eq_zero_of_isDiagonal {a : Mat K n n} (diagonal : a.isDiagonal = true) {i j : Fin n}
    (other : i ≠ j) : a i j = 0 := by
  simp only [Mat.isDiagonal, List.all_eq_true, List.mem_finRange, true_implies, Bool.or_eq_true,
    beq_iff_eq, Scalar.isZero_iff] at diagonal
  exact (diagonal i j).resolve_left other

theorem Diagonal.all_ne_zero_iff {a : Mat K n n} :
    (a.diagonal.all fun x => !Scalar.isZero x) = true ↔ ∀ i, a i i ≠ 0 := by
  simp only [Vec.all_eq_true_iff, Mat.diagonal_apply, Bool.not_eq_true', ← Bool.not_eq_true,
    Scalar.isZero_iff, ne_eq]

/-- A diagonal matrix is singular exactly if its diagonal has a zero, and then the solve fails. -/
theorem Diagonal.solve?_eq_none_iff {a : Mat K n n} {b : Mat K n k}
    (diagonal : a.isDiagonal = true) : Diagonal.solve? a b = none ↔ a.IsSingular := by
  have off (i j : Fin n) (other : i ≠ j) : a i j = 0 := Mat.eq_zero_of_isDiagonal diagonal other
  have failed : Diagonal.solve? a b = none ↔ ∃ i, a i i = 0 := by
    rw [← not_forall_not, ← Diagonal.all_ne_zero_iff, Diagonal.solve?]
    split
    · exact iff_of_false (Option.some_ne_none _) (not_not_intro ‹_›)
    · exact iff_of_true rfl ‹_›
  rw [failed]
  constructor
  · rintro ⟨j, zero⟩
    refine Mat.isSingular_of_column (j := j) fun i => ?_
    by_cases same : i = j
    · rw [same, zero]
    · exact off i j same
  · rintro ⟨v, nonzero, kernel⟩
    obtain ⟨i, entry⟩ := Function.ne_iff.1 nonzero
    -- Of the sum in row `i` only the term on the diagonal is left.
    have at_i := kernel i
    rw [Finset.sum_eq_single i (fun j _ other => by rw [off i j other.symm, zero_mul])
      fun missing => absurd (Finset.mem_univ i) missing] at at_i
    exact ⟨i, (mul_eq_zero.1 at_i).resolve_right entry⟩

/-- In exact arithmetic there is a factor for all totals above the tolerance, except for zero. -/
theorem Scaling.ofTotal?_eq (tol : K) (rows : Nat) (total : K) :
    ofTotal? tol rows total =
      if total ≤ tol then .ok none
      else if total = 0 then .error .divisionByZero
      else .ok (some ⟨((rows * rows : Nat) : K) / total⟩) := by
  simp only [ofTotal?, Scalar.isFinite_eq_true, Bool.not_true, Bool.false_or, Scalar.le_iff,
    Scalar.isZero_iff]

theorem Scaling.le_of_ofJacobian?_eq_none {tol : K} {j : Mat K n n}
    (unscaled : ofJacobian? tol j = .ok none) : j.absTotal ≤ tol := by
  rw [ofJacobian?, ofTotal?_eq] at unscaled
  by_contra above
  rw [if_neg above] at unscaled
  split at unscaled <;> cases unscaled

theorem Scaling.lt_of_ofJacobian?_eq_some {tol : K} {j : Mat K n n} {c : Scaling K}
    (scaled : ofJacobian? tol j = .ok (some c)) : tol < j.absTotal := by
  rw [ofJacobian?, ofTotal?_eq] at scaled
  by_contra within
  rw [if_pos (not_lt.1 within)] at scaled
  cases scaled

variable [IsStrictOrderedRing K]

/-- The factor for a total other than zero is not zero: such a total is not that of the empty matrix.
-/
theorem Mat.div_absTotal_ne_zero {j : Mat K n n} (total : j.absTotal ≠ 0) :
    ((n * n : Nat) : K) / j.absTotal ≠ 0 := by
  have size : n ≠ 0 := by
    rintro rfl
    rw [Mat.absTotal_eq_sum, Finset.univ_eq_empty, Finset.sum_empty] at total
    exact total rfl
  exact div_ne_zero (Nat.cast_ne_zero.2 (Nat.mul_ne_zero size size)) total

theorem Scaling.factor_ne_zero {tol : K} {j : Mat K n n} {c : Scaling K}
    (scaled : ofJacobian? tol j = .ok (some c)) : c.factor ≠ 0 := by
  rw [ofJacobian?, ofTotal?_eq] at scaled
  split at scaled
  · cases scaled
  · split at scaled
    · cases scaled
    · cases scaled
      exact Mat.div_absTotal_ne_zero ‹_›

/-- A solve fails on singular matrices, and on no others. -/
theorem LinearSolve.ofMatrix_cases (a : Mat K n n) (b : Mat K n k) :
    (∃ x, ofMatrix a b = ⟨some x, none⟩) ∧ ¬ a.IsSingular ∨
      ofMatrix a b = ⟨none, some .singularSystem⟩ ∧ a.IsSingular := by
  rw [ofMatrix]
  generalize solve : (if 1 < n && a.isDiagonal then Diagonal.solve? a b
    else Elimination.solve? a b) = x
  -- Both procedures fail on the same matrices.
  have fails : x = none ↔ a.IsSingular := by
    rw [← solve]
    split
    case isTrue chosen =>
      rw [Bool.and_eq_true] at chosen
      exact Diagonal.solve?_eq_none_iff chosen.2
    case isFalse => exact Elimination.solve?_eq_none_iff
  cases x with
  | none => exact .inr ⟨rfl, fails.1 rfl⟩
  | some x =>
    rw [judge, if_pos x.isFinite_eq_true]
    exact .inl ⟨⟨x, rfl⟩, mt fails.2 (Option.some_ne_none x)⟩

/-- **The solve for a step fails exactly on singular Jacobians**, and so it does if both sides of
the system are multiplied by the factor that brings the Jacobian to magnitude one. -/
theorem System.exists_newtonStep_apply {tol : K} {s : System K n} {c : Scaling K}
    (nonempty : 0 < n) (scaled : Scaling.ofJacobian? tol s.jacobian = .ok (some c)) :
    ∃ r, (c.apply s).newtonStep = .ok r ∧
      (r.reason = none ∧ ¬ s.jacobian.IsSingular ∨
        r.reason = some .singularSystem ∧ s.jacobian.IsSingular) := by
  cases n with
  | zero => exact absurd nonempty (Nat.lt_irrefl 0)
  | succ n =>
    refine ⟨_, rfl, ?_⟩
    rw [← Mat.isSingular_map_mul_iff (Scaling.factor_ne_zero scaled)]
    rcases LinearSolve.ofMatrix_cases (c.apply s).jacobian (.column (c.apply s).balance) with
      ⟨⟨x, solved⟩, regular⟩ | ⟨failed, singular⟩
    · rw [solved]
      exact .inl ⟨rfl, regular⟩
    · rw [failed]
      exact .inr ⟨rfl, singular⟩

end BalanceFit
