import Mathlib.Algebra.BigOperators.Fin
import Mathlib.Algebra.Order.Field.Basic
import BalanceFit.Design
import BalanceFit.Proofs.Scalar.Zero

/-!
# Exact arithmetic

In a linearly ordered field a fit computes without rounding: every number is finite, and sums do not
depend on their order. So the sums of this library, whatever the order in which they are taken, are
the sums of mathematics.

## Main definitions

* `Scalar.ofField` : the arithmetic of a linearly ordered field

## Main statements

* `Vec.dot_eq_sum`, `Vec.absTotal_eq_sum`, `Mat.absTotal_eq_sum`, `Design.total_eq_sum` : the sums
  of this library as sums over indices and lists
-/

namespace BalanceFit

section Sums

variable {α M : Type} [AddCommMonoid M] {n : Nat}

theorem Vec.toList_eq_ofFn (v : Vec α n) : v.toList = List.ofFn fun i => v i := by
  have entries : v = .ofFn fun i => v i := by
    ext i
    rw [ofFn_apply]
  conv => lhs; rw [entries, toList_ofFn]

/-- A test of all entries fails at the first entry that it fails at. -/
theorem Vec.all_eq_true_iff {p : α → Bool} {v : Vec α n} : v.all p = true ↔ ∀ i, p (v i) = true := by
  have step (acc : Bool) : ∀ {n : Nat} (f : Fin n → Bool),
      Fin.foldl n (fun acc i => acc && f i) acc = true ↔ acc = true ∧ ∀ i, f i = true := by
    intro n f
    induction n generalizing acc with
    | zero => simp
    | succ n ih => rw [Fin.foldl_succ, ih, Bool.and_eq_true, Fin.forall_fin_succ, and_assoc]
  rw [all, step, and_iff_right rfl]

theorem pairwiseSum_eq_sum (l : List M) : pairwiseSum l = l.sum := by
  rw [pairwiseSum_eq_foldl, List.sum_eq_foldl]

theorem Vec.foldl_add_eq_sum (f : Fin n → M) (x : M) :
    Fin.foldl n (fun acc i => acc + f i) x = x + ∑ i, f i := by
  induction n generalizing x with
  | zero => simp
  | succ n ih => rw [Fin.foldl_succ, ih, Fin.sum_univ_succ, add_assoc]

theorem Vec.dot_eq_sum {R : Type} [NonUnitalNonAssocSemiring R] (v w : Vec R n) :
    v.dot w = ∑ i, v i * w i := by
  rw [dot, sum, foldl_add_eq_sum, zero_add]
  simp only [zipWith_apply]

end Sums

variable {K : Type} [Field K] [LinearOrder K] {m n : Nat}

/-- Exact arithmetic. There is no value that is no number; zero takes its place. -/
instance Scalar.ofField : Scalar K where
  abs x := |x|
  le x y := decide (x ≤ y)
  lt x y := decide (x < y)
  isZero x := decide (x = 0)
  isFinite _ := true
  nan := 0

namespace Scalar

@[simp] theorem abs_eq (x : K) : Scalar.abs x = |x| := rfl

@[simp] theorem le_iff {x y : K} : Scalar.le x y = true ↔ x ≤ y := decide_eq_true_iff

@[simp] theorem lt_iff {x y : K} : Scalar.lt x y = true ↔ x < y := decide_eq_true_iff

@[simp] theorem isZero_iff {x : K} : Scalar.isZero x = true ↔ x = 0 := decide_eq_true_iff

@[simp] theorem isFinite_eq_true (x : K) : Scalar.isFinite x = true := rfl

/-- A threshold is a number that is not negative. -/
@[simp] theorem isThreshold_iff {x : K} : isThreshold x = true ↔ 0 ≤ x := by
  rw [isThreshold, Bool.and_eq_true, Bool.not_eq_true', ← Bool.not_eq_true, lt_iff, not_lt,
    and_iff_right (isFinite_eq_true x)]

instance : Scalar.LawfulZero K where
  zero_add_zero := add_zero (0 : K)
  isFinite_zero := rfl
  isZero_zero := isZero_iff.2 rfl
  le_of_isZero zero threshold := by
    rw [isZero_iff] at zero
    rw [le_iff, zero]
    exact isThreshold_iff.1 threshold

end Scalar

theorem Design.total_eq_sum (l : List K) : Design.total l = l.sum := by
  rw [Design.total, List.sum_eq_foldl]

theorem Vec.isFinite_eq_true (v : Vec K n) : v.isFinite = true :=
  Vec.all_eq_true_iff.2 fun i => Scalar.isFinite_eq_true (v i)

theorem Mat.isFinite_eq_true (a : Mat K m n) : a.isFinite = true :=
  Vec.all_eq_true_iff.2 fun i => (a i).isFinite_eq_true

theorem Vec.absTotal_eq_sum (v : Vec K n) : v.absTotal = ∑ i, |v i| := by
  rw [absTotal, pairwiseSum_eq_sum, toList_eq_ofFn, List.map_ofFn, List.sum_ofFn]
  rfl

theorem Mat.absTotal_eq_sum (a : Mat K m n) : a.absTotal = ∑ i, ∑ j, |a i j| := by
  rw [Mat.absTotal, pairwiseSum_eq_sum, List.map_flatten, List.sum_flatten, Mat.toLists,
    Vec.toList_eq_ofFn, List.map_ofFn, List.map_ofFn, List.sum_ofFn]
  refine Finset.sum_congr rfl fun i _ => ?_
  rw [Function.comp_apply, Function.comp_apply, Vec.map_apply, Vec.toList_eq_ofFn, List.map_ofFn,
    List.sum_ofFn]
  rfl

end BalanceFit
