import Mathlib.Algebra.BigOperators.Field
import Mathlib.Algebra.BigOperators.Fin
import Mathlib.Algebra.Field.Rat
import Mathlib.Algebra.Order.Field.Basic
import Mathlib.Algebra.Order.Ring.Abs
import Mathlib.Algebra.Order.Ring.Rat
import Mathlib.Data.Fin.VecNotation
import Mathlib.Tactic.FieldSimp
import Mathlib.Tactic.Ring
import BalanceFit.Proofs.Grid.System
import BalanceFit.Proofs.System.Singular

/-!
# Scaled systems

In exact arithmetic the factor of a scaling brings the total of a Jacobian to the number of its
entries. So a scaled system is a normal form: it has the solutions of the original, all positive
multiples of a system lead to it, and to scale it again changes nothing.

## Main statements

* `Mat.absTotal_apply` : a factor of the system is one of the total of its Jacobian
* `Scaling.ofJacobian?_eq_some_iff` : which factor there is, and when
* `Scaling.canonical` : scaled systems are in normal form
-/

namespace BalanceFit

variable {K : Type} [Field K] [LinearOrder K] {n : Nat}

/-- A scaling after another one is the scaling by the product. -/
theorem Scaling.apply_apply (a c : Scaling K) (s : System K n) :
    a.apply (c.apply s) = (Scaling.mk (c.factor * a.factor)).apply s := by
  have balance : (a.apply (c.apply s)).balance =
      ((Scaling.mk (c.factor * a.factor)).apply s).balance := by
    ext i
    simp only [apply_balance_apply, mul_assoc]
  have jacobian : (a.apply (c.apply s)).jacobian =
      ((Scaling.mk (c.factor * a.factor)).apply s).jacobian := by
    ext i j
    simp only [apply_jacobian_apply, mul_assoc]
  exact congrArg₂ System.mk balance jacobian

section Totals

variable [IsStrictOrderedRing K] {c : K}

theorem Vec.absTotal_apply (nonneg : 0 ≤ c) (s : System K n) :
    ((Scaling.mk c).apply s).balance.absTotal = s.balance.absTotal * c := by
  simp only [absTotal_eq_sum, Scaling.apply_balance_apply, abs_mul, abs_of_nonneg nonneg,
    Finset.sum_mul]

theorem Mat.absTotal_apply (nonneg : 0 ≤ c) (s : System K n) :
    ((Scaling.mk c).apply s).jacobian.absTotal = s.jacobian.absTotal * c := by
  simp only [absTotal_eq_sum, Scaling.apply_jacobian_apply, abs_mul, abs_of_nonneg nonneg,
    Finset.sum_mul]

end Totals

namespace Scaling

variable {tol : K} {j : Mat K n n} {s : System K n} {c : Scaling K}

theorem ofJacobian?_eq_none_iff : ofJacobian? tol j = .ok none ↔ j.absTotal ≤ tol := by
  refine ⟨le_of_ofJacobian?_eq_none, fun within => ?_⟩
  rw [ofJacobian?, ofTotal?_eq, if_pos within]

/-- There is a factor for each total above a tolerance that is not negative. -/
theorem ofJacobian?_eq_some_iff (threshold : 0 ≤ tol) :
    ofJacobian? tol j = .ok (some c) ↔
      tol < j.absTotal ∧ c = ⟨((n * n : Nat) : K) / j.absTotal⟩ := by
  rw [ofJacobian?, ofTotal?_eq]
  by_cases within : j.absTotal ≤ tol
  · rw [if_pos within, Except.ok.injEq]
    exact iff_of_false (Option.some_ne_none c).symm fun above => absurd within above.1.not_ge
  · have above : tol < j.absTotal := not_le.1 within
    rw [if_neg within, if_neg (threshold.trans_lt above).ne', and_iff_right above,
      Except.ok.injEq, Option.some.injEq, eq_comm]

/-- The factor one leaves a system as it is. -/
theorem apply_one (s : System K n) : (Scaling.mk 1).apply s = s := by
  have balance : ((Scaling.mk 1).apply s).balance = s.balance := by
    ext i
    rw [apply_balance_apply, mul_one]
  have jacobian : ((Scaling.mk 1).apply s).jacobian = s.jacobian := by
    ext i j
    rw [apply_jacobian_apply, mul_one]
  exact congrArg₂ System.mk balance jacobian

/-- A factor other than zero leaves a system its solutions. -/
theorem solves_apply_iff (nonzero : c.factor ≠ 0) (s : System K n) (d : Fin n → K) :
    (∀ i, ∑ j, (c.apply s).jacobian i j * d j = (c.apply s).balance i) ↔
      ∀ i, ∑ j, s.jacobian i j * d j = s.balance i := by
  refine forall_congr' fun i => ?_
  rw [apply_balance_apply, apply, Mat.sum_map_mul]
  exact mul_left_inj' nonzero

variable [IsStrictOrderedRing K]

theorem factor_pos (threshold : 0 ≤ tol) (scaled : ofJacobian? tol j = .ok (some c)) :
    0 < c.factor := by
  refine lt_of_le_of_ne ?_ (factor_ne_zero scaled).symm
  obtain ⟨above, rfl⟩ := (ofJacobian?_eq_some_iff threshold).1 scaled
  exact div_nonneg (Nat.cast_nonneg _) (threshold.trans above.le)

/-- The scaled Jacobian has as large a total as a matrix of ones. -/
theorem absTotal_of_ofJacobian? (threshold : 0 ≤ tol)
    (scaled : ofJacobian? tol s.jacobian = .ok (some c)) :
    (c.apply s).jacobian.absTotal = n * n := by
  have positive := factor_pos threshold scaled
  obtain ⟨above, rfl⟩ := (ofJacobian?_eq_some_iff threshold).1 scaled
  rw [Mat.absTotal_apply positive.le, mul_div_cancel₀ _ (threshold.trans_lt above).ne',
    Nat.cast_mul]

/-- A scaled system is scaled by the factor one. -/
theorem ofJacobian?_apply (threshold : 0 ≤ tol)
    (scaled : ofJacobian? tol s.jacobian = .ok (some c)) {tol' : K} (below : tol' < n * n) :
    ofJacobian? tol' (c.apply s).jacobian = .ok (some ⟨1⟩) := by
  have total := absTotal_of_ofJacobian? threshold scaled
  have nonzero : (n * n : K) ≠ 0 := by
    obtain ⟨above, rfl⟩ := (ofJacobian?_eq_some_iff threshold).1 scaled
    have quotient := Mat.div_absTotal_ne_zero (threshold.trans_lt above).ne'
    rw [← Nat.cast_mul]
    exact (div_ne_zero_iff.1 quotient).1
  rw [ofJacobian?, ofTotal?_eq, total, if_neg below.not_ge, if_neg nonzero, Nat.cast_mul,
    div_self nonzero]

/-- All positive multiples of a system lead to one scaled system: the factor loses what the system
has gained, also if the total is zero. -/
theorem apply_quotient {a : K} (positive : 0 < a) (s : System K n) :
    (Scaling.mk (((n * n : Nat) : K) / ((Scaling.mk a).apply s).jacobian.absTotal)).apply
        ((Scaling.mk a).apply s) =
      (Scaling.mk (((n * n : Nat) : K) / s.jacobian.absTotal)).apply s := by
  have factor : a * (((n * n : Nat) : K) / (s.jacobian.absTotal * a)) =
      ((n * n : Nat) : K) / s.jacobian.absTotal := by
    rw [← mul_div_assoc, mul_comm a, mul_div_mul_right _ _ positive.ne']
  rw [apply_apply, Mat.absTotal_apply positive.le, factor]

/-- **Scaled systems are in normal form.** There is no factor exactly if the magnitudes in the
Jacobian add up to the tolerance at most; otherwise there is one, and it is positive. The magnitudes
in the scaled Jacobian add up to the number of its entries, and the scaled system has the solutions
of the original. To scale it again changes nothing, and a positive multiple of the original, if its
total is above the tolerance as well, leads to the same scaled system. The factor for arrays is the
one for systems. -/
theorem canonical (threshold : 0 ≤ tol) (s : System K n) :
    (ofJacobian? tol s.jacobian = .ok none ↔ ∑ i, ∑ j, |s.jacobian i j| ≤ tol) ∧
    (tol < ∑ i, ∑ j, |s.jacobian i j| →
      ∃ c, ofJacobian? tol s.jacobian = .ok (some c) ∧ 0 < c.factor ∧
        ∑ i, ∑ j, |(c.apply s).jacobian i j| = n * n ∧
        (∀ d : Fin n → K,
          (∀ i, ∑ j, (c.apply s).jacobian i j * d j = (c.apply s).balance i) ↔
            ∀ i, ∑ j, s.jacobian i j * d j = s.balance i) ∧
        (∀ tol' < (n * n : K), ∃ c', ofJacobian? tol' (c.apply s).jacobian = .ok (some c') ∧
          c'.apply (c.apply s) = c.apply s) ∧
        ∀ a > 0, ∀ s' : System K n, (∀ i, s'.balance i = a * s.balance i) →
          (∀ i j, s'.jacobian i j = a * s.jacobian i j) → tol < ∑ i, ∑ j, |s'.jacobian i j| →
          ∃ c', ofJacobian? tol s'.jacobian = .ok (some c') ∧ c'.apply s' = c.apply s) ∧
    Grid.scaling? (.ok tol) (.ofMat s.jacobian) = ofJacobian? tol s.jacobian ∧
    ∀ c, Grid.scale c (.ofMat s.jacobian) = .ofMat (c.apply s).jacobian ∧
      Grid.scale c (.ofVec s.balance) = .ofVec (c.apply s).balance := by
  simp only [← Mat.absTotal_eq_sum]
  refine ⟨ofJacobian?_eq_none_iff, fun above => ?_, Grid.scaling?_ofMat tol s.jacobian,
    fun c => ⟨Grid.scale_ofMat c s, Grid.scale_ofVec c s⟩⟩
  have scaled := (ofJacobian?_eq_some_iff threshold).2 ⟨above, rfl⟩
  have positive := factor_pos threshold scaled
  refine ⟨_, scaled, positive, absTotal_of_ofJacobian? threshold scaled,
    solves_apply_iff positive.ne' s, fun tol' below => ?_, fun a multiple s' balance jacobian => ?_⟩
  · exact ⟨⟨1⟩, ofJacobian?_apply threshold scaled below, apply_one _⟩
  · have same : s' = (Scaling.mk a).apply s := by
      refine congrArg₂ System.mk (Vec.ext fun i => ?_) (Vec.ext fun i => Vec.ext fun j => ?_)
      · rw [balance, Vec.map_apply, mul_comm]
      · rw [jacobian, Vec.map_apply, Vec.map_apply, mul_comm]
    intro above'
    refine ⟨_, (ofJacobian?_eq_some_iff threshold).2 ⟨above', rfl⟩, ?_⟩
    rw [same]
    exact apply_quotient multiple s

omit [LinearOrder K] [IsStrictOrderedRing K] in
/-- The magnitudes add up to eight where four is the number of the entries. Three times the system
leads to the same scaled system. -/
theorem canonical_halved :
    let s : System ℚ 2 := ⟨.ofFn ![1, 3], .ofFn ![![4, -2], ![0, 2]]⟩
    let threefold : System ℚ 2 := ⟨.ofFn ![3, 9], .ofFn ![![12, -6], ![0, 6]]⟩
    (0 : ℚ) ≤ 1 ∧ (1 : ℚ) < ∑ i, ∑ j, |s.jacobian i j| ∧
      ofJacobian? 1 s.jacobian = .ok (some ⟨1 / 2⟩) ∧
      ∃ c, ofJacobian? 1 threefold.jacobian = .ok (some c) ∧
        c.apply threefold = (Scaling.mk (1 / 2)).apply s := by
  intro s threefold
  have above : (1 : ℚ) < ∑ i, ∑ j, |s.jacobian i j| := by decide +kernel
  have half : ofJacobian? 1 s.jacobian = .ok (some ⟨1 / 2⟩) := by decide +kernel
  obtain ⟨c, scaled, -, -, -, -, multiples⟩ := (canonical zero_le_one s).2.1 above
  obtain rfl := Option.some.inj (Except.ok.inj (half.symm.trans scaled))
  exact ⟨zero_le_one, above, half, multiples 3 three_pos threefold (by decide +kernel)
    (by decide +kernel) (by decide +kernel)⟩

end Scaling

end BalanceFit
