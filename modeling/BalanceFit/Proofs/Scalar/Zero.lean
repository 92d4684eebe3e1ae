import BalanceFit.Config
import BalanceFit.System

/-!
# Zero and the thresholds of a fit

The parameters of a fit are finite numbers that are not negative, so a total of zero is within each
of them. That is all a fit takes for granted of the arithmetic that it runs in: doubles have these
laws, rounding and NaN notwithstanding, and so has exact arithmetic.

## Main definitions

* `Scalar.LawfulZero` : the laws

## Main statements

* `Vec.absTotal_empty` : the empty vector has the total zero
* `Config.isThreshold_epsilon`, `Config.isThreshold_balanceTol`, `Config.isThreshold_jacobianTol` :
  accepted parameters are thresholds
-/

namespace BalanceFit

variable {α : Type} [Scalar α]

/-- Zero is a finite number, and it is at most each threshold. -/
class Scalar.LawfulZero (α : Type) [Scalar α] : Prop where
  zero_add_zero : (0 : α) + 0 = 0
  isFinite_zero : Scalar.isFinite (0 : α) = true
  isZero_zero : Scalar.isZero (0 : α) = true
  le_of_isZero {x t : α} : Scalar.isZero x = true → isThreshold t = true → Scalar.le x t = true

open Scalar.LawfulZero

theorem Vec.absTotal_empty [Scalar.LawfulZero α] (v : Vec α 0) : v.absTotal = 0 := by
  -- Summing nothing adds up zeros, which are not known to be neutral for other numbers.
  have empty : v.toList.map Scalar.abs = [] := by
    rw [← List.length_eq_zero_iff, List.length_map, Vec.length_toList]
  rw [Vec.absTotal, empty]
  simp only [pairwiseSum, List.length_nil, halvedSum, Lanes.sumWith, Lanes.addRows, Lanes.total,
    List.foldl_nil, zero_add_zero]

namespace Config

variable {c : Config α}

theorem isThreshold_epsilon (accepted : c.accepted = true) : isThreshold c.epsilon = true := by
  simp only [Config.accepted, Bool.and_eq_true] at accepted
  exact accepted.1.1.1.1

theorem isThreshold_balanceTol (accepted : c.accepted = true) : isThreshold c.balanceTol = true := by
  simp only [Config.accepted, Bool.and_eq_true] at accepted
  exact accepted.1.1.1.2

theorem isThreshold_jacobianTol (accepted : c.accepted = true) :
    isThreshold c.jacobianTol = true := by
  simp only [Config.accepted, Bool.and_eq_true] at accepted
  exact accepted.1.1.2

theorem one_le_maxIter (accepted : c.accepted = true) : 1 ≤ c.maxIter := by
  simp only [Config.accepted, Bool.and_eq_true, decide_eq_true_eq] at accepted
  exact accepted.2

end Config

end BalanceFit
