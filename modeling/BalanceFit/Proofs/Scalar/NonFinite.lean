import BalanceFit.NormalEquations
import BalanceFit.Proofs.Scalar.Field

/-!
# Infinities and NaN spread

In arithmetic with infinities and NaN, a sum, a difference or a product is finite only if both
operands are: a factor of zero does not undo an infinity. So a single value that is not finite
spoils every sum that it takes part in, and a sum that is finite vouches for all its terms.

## Main definitions

* `Scalar.Propagates` : arithmetic in which values that are not finite spread
* `Scalar.LawfulUnits` : arithmetic in which zero and one do what they should to finite numbers

## Main statements

* `Design.moment_append_zero`, `Design.gram_append_zero` : finite rows with a coefficient of zero
  add nothing
* `Vec.isFinite_of_absTotal` : a finite total has finite entries
* `Design.isFinite_of_moment`, `Design.isFinite_of_gram` : finite sums over rows have finite rows
  and coefficients
* `System.isFinite_of_regularize` : a finite balance with a ridge vouches for the coefficients
* `NormalEquations.isFinite_of_solution` : a solution that is finite comes from finite equations
-/

namespace BalanceFit

/-- Sums, differences and products are finite only if both operands are, and NaN is not. -/
class Scalar.Propagates (α : Type) [Scalar α] : Prop where
  of_add {x y : α} : isFinite (x + y) = true → isFinite x = true ∧ isFinite y = true
  of_sub {x y : α} : isFinite (x - y) = true → isFinite x = true ∧ isFinite y = true
  of_mul {x y : α} : isFinite (x * y) = true → isFinite x = true ∧ isFinite y = true
  of_abs {x : α} : isFinite (abs x) = true → isFinite x = true
  isFinite_nan : isFinite (nan : α) = false

/-- One is finite, and zero is neutral in sums and absorbs finite factors. Up to the sign of zero
these are laws of doubles. -/
class Scalar.LawfulUnits (α : Type) [Scalar α] : Prop where
  isFinite_one : isFinite (1 : α) = true
  add_zero_eq (x : α) : x + 0 = x
  mul_zero_eq {x : α} : isFinite x = true → x * 0 = 0
  zero_mul_eq {x : α} : isFinite x = true → 0 * x = 0

variable {α : Type} [Scalar α] {n p : Nat}

theorem Vec.isFinite_iff {v : Vec α n} : v.isFinite = true ↔ ∀ i, Scalar.isFinite (v i) = true :=
  Vec.all_eq_true_iff

theorem Vec.isFinite_ofList (l : List α) : (ofList l).isFinite = l.all Scalar.isFinite := by
  rw [Bool.eq_iff_iff, isFinite_iff, List.all_eq_true, List.forall_mem_iff_getElem, Fin.forall_iff]
  simp only [ofList_apply, Fin.getElem_fin]

namespace Design

variable [Scalar.LawfulUnits α] {terms : List (Vec α p × α)} {x : Vec α p}

open Scalar.LawfulUnits

/-- A finite row with a coefficient of zero adds nothing to a sum of rows, -/
theorem moment_append_zero (finite : x.isFinite = true) :
    moment (terms ++ [(x, 0)]) = moment terms := by
  ext j
  have term : x j * 0 = 0 := mul_zero_eq (Vec.isFinite_iff.1 finite j)
  rw [moment_apply, moment_apply, List.map_append, total, List.foldl_append]
  change total _ + x j * 0 = _
  rw [term, add_zero_eq]

/-- and nothing to a sum of outer products. -/
theorem gram_append_zero (finite : x.isFinite = true) :
    gram (terms ++ [(x, 0)]) = gram terms := by
  ext j k
  have term : x j * (x k * 0) = 0 := by
    rw [mul_zero_eq (Vec.isFinite_iff.1 finite k), mul_zero_eq (Vec.isFinite_iff.1 finite j)]
  rw [gram_apply, gram_apply, List.map_append, total, List.foldl_append]
  change total _ + x j * (x k * 0) = _
  rw [term, add_zero_eq]

/-- The design row of a finite predictor is finite. -/
theorem isFinite_row [Scalar.LawfulZero α] {intercept : Bool} {l : List α}
    (finite : ∀ a ∈ l, Scalar.isFinite a = true) : (row p intercept l).isFinite = true := by
  have entries : ∀ a ∈ (if intercept then l ++ [1] else l), Scalar.isFinite a = true := by
    cases intercept with
    | false => exact finite
    | true =>
      intro a member
      rcases List.mem_append.1 member with given | last
      · exact finite a given
      · rw [List.mem_singleton.1 last]
        exact isFinite_one
  rw [Vec.isFinite_iff]
  intro i
  rw [row, Vec.ofListPadded_apply, List.getD_eq_getElem?_getD]
  cases found : (if intercept then l ++ [1] else l)[i.val]? with
  | none => exact Scalar.LawfulZero.isFinite_zero
  | some a => exact entries a (List.mem_of_getElem? found)

end Design

variable [Scalar.Propagates α]

open Scalar.Propagates

/-- A vector whose total is finite has finite entries. -/
theorem Vec.isFinite_of_absTotal {v : Vec α n} (finite : Scalar.isFinite v.absTotal = true) :
    v.isFinite = true := by
  rw [Vec.isFinite_iff]
  intro i
  have magnitudes := of_pairwiseSum (p := fun x : α => Scalar.isFinite x = true)
    (fun _ _ => of_add) finite
  refine of_abs (magnitudes _ (List.mem_map_of_mem ?_))
  rw [Vec.toList_eq_ofFn, List.mem_ofFn]
  exact ⟨i, rfl⟩

namespace Design

/-- A sum that is finite has finite terms. -/
theorem isFinite_of_total {l : List α} (finite : Scalar.isFinite (total l) = true) :
    ∀ x ∈ l, Scalar.isFinite x = true :=
  (of_foldl_add (p := fun x : α => Scalar.isFinite x = true) (fun _ _ => of_add) finite).2

variable {terms : List (Vec α p × α)} {x : Vec α p} {c : α} {j k : Fin p}

/-- An entry of a sum of rows is finite only if the entries and the coefficients are. -/
theorem isFinite_of_moment (finite : Scalar.isFinite (moment terms j) = true)
    (member : (x, c) ∈ terms) : Scalar.isFinite (x j) = true ∧ Scalar.isFinite c = true := by
  rw [moment_apply] at finite
  exact of_mul (isFinite_of_total finite _ (List.mem_map_of_mem member))

/-- An entry of a sum of outer products is finite only if the entries and the coefficients are. -/
theorem isFinite_of_gram (finite : Scalar.isFinite (gram terms j k) = true)
    (member : (x, c) ∈ terms) :
    Scalar.isFinite (x j) = true ∧ Scalar.isFinite (x k) = true ∧ Scalar.isFinite c = true := by
  rw [gram_apply] at finite
  obtain ⟨first, rest⟩ := of_mul (isFinite_of_total finite _ (List.mem_map_of_mem member))
  exact ⟨first, of_mul rest⟩

end Design

/-- A balance that is finite with the ridge was finite without it, and so are the coefficients. This
holds even of a ridge of strength zero. -/
theorem System.isFinite_of_regularize {epsilon : α} {beta : Vec α n} {s : System α n}
    (finite : (s.regularize epsilon beta).balance.isFinite = true) :
    s.balance.isFinite = true ∧ beta.isFinite = true := by
  rw [Vec.isFinite_iff] at finite
  have parts (i : Fin n) : Scalar.isFinite (s.balance i) = true ∧
      Scalar.isFinite (beta i) = true := by
    have entry := finite i
    rw [regularize_balance_apply] at entry
    obtain ⟨balance, ridge⟩ := of_add entry
    exact ⟨balance, (of_mul ridge).2⟩
  exact ⟨Vec.isFinite_iff.2 fun i => (parts i).1, Vec.isFinite_iff.2 fun i => (parts i).2⟩

/-- A solution with a finite entry comes from finite equations. -/
theorem NormalEquations.isFinite_of_solution [LeastSquares α] {e : NormalEquations α p} {j : Fin p}
    (finite : Scalar.isFinite (e.solution j) = true) : e.isFinite = true := by
  by_contra broken
  rw [solution, if_neg broken, Vec.replicate_apply, isFinite_nan] at finite
  exact absurd finite Bool.false_ne_true

end BalanceFit
