import Mathlib.Algebra.BigOperators.Fin
import Mathlib.Algebra.Field.Rat
import Mathlib.Algebra.Order.Field.Basic
import Mathlib.Algebra.Order.Ring.Rat
import Mathlib.LinearAlgebra.Matrix.Notation
import Mathlib.Tactic.FinCases
import Mathlib.Tactic.Linarith
import Mathlib.Tactic.NormNum
import Mathlib.Tactic.Ring
import BalanceFit.Proofs.Fitter.WarmStart
import BalanceFit.Proofs.Model.LeastNorm
import BalanceFit.Proofs.Model.Ridge

/-!
# The least-squares solution for a store

For the observations of a store with the design matrix `X`, the weights `W` and the responses `y`,
the coefficients `b` with `Xᵀ W X b = Xᵀ W y` are those at which `∑ w (x · b - y)²` is least. A
store is asked for the shortest of them. It need not have as many observations as coefficients, and
any of the weights may be zero.

## Main definitions

* `Store.squares` : the weighted sum of squared residuals
* `Observation.ofRow` : the observation that a row of data makes

## Main statements

* `Store.log_addAll` : if all rows of data were appended, the log holds their observations
* `Store.isSolution_iff` : the normal equations as equations of matrices
* `Store.leastSquares_addAll` : the coefficients for rows of data
-/

namespace BalanceFit

open Matrix

/-- The observation that a row of data makes. -/
def Observation.ofRow {α : Type} (row : Grid α × α × α) : Observation α :=
  ⟨row.1.entries, row.2.1, row.2.2⟩

namespace Store

section Append

variable {α : Type}

/-- If a ledger admits all rows, the log gets the observation of each. -/
theorem Ledger.log_pushRows {l : Ledger α} {rows : List (Grid α × α × α)}
    (all : (l.pushRows rows).1 = true) :
    (l.pushRows rows).2.log = l.log ++ rows.map Observation.ofRow := by
  induction rows generalizing l with
  | nil => exact (List.append_nil l.log).symm
  | cons row rest ih =>
    obtain ⟨x, y, weight⟩ := row
    rw [pushRows] at all ⊢
    cases admitted : l.admit? (.ok x) (.ok y) (.ok weight) with
    | none =>
      rw [admitted] at all
      cases all
    | some o =>
      rw [admitted] at all
      obtain ⟨⟨g, same, -, entries⟩, response, coefficient, -⟩ := admit?_eq_some_iff.1 admitted
      cases same
      have made : o = .ofRow (x, y, weight) := by
        rw [Observation.ofRow, entries, Except.ok.inj response, Except.ok.inj coefficient]
      rw [List.map_cons, ← made]
      exact (ih all).trans (List.append_assoc l.log [o] _)

theorem log_addAll {s : Store α} {rows : List (Grid α × α × α)}
    (accepted : (s.addAll rows).1 = .ok ()) :
    (s.addAll rows).2.log = s.log ++ rows.map Observation.ofRow := by
  obtain ⟨same, replied⟩ := addAll_eq s rows
  rw [accepted] at replied
  have all : (s.ledger.pushRows rows).1 = true := by
    by_contra some_refused
    rw [if_neg some_refused] at replied
    obtain ⟨f, failed⟩ := replied
    cases failed
  rw [← log_ledger, same, Ledger.log_pushRows all, log_ledger]

end Append

variable {K : Type} [Field K] (s : Store K) (n : Nat) (intercept : Bool)

/-- The weighted sum of the squared residuals of all observations. -/
def squares (b : Fin n → K) : K :=
  ∑ i, s.weights i * ((s.designMatrix n intercept *ᵥ b) i - s.responses i) ^ 2

variable [LinearOrder K]

theorem squares_eq :
    Design.squares (s.log.map (Design.sample n intercept)) = s.squares n intercept := by
  funext b
  rw [Design.squares, squares, List.map_map, ← Fin.sum_univ_fun_getElem]
  rfl

/-- The normal equations are `Xᵀ W X b = Xᵀ W y`. -/
theorem isSolution_iff {b : Fin n → K} :
    (NormalEquations.ofSamples (s.log.map (Design.sample n intercept))).IsSolution b ↔
      ((s.designMatrix n intercept)ᵀ * diagonal s.weights * s.designMatrix n intercept) *ᵥ b =
        ((s.designMatrix n intercept)ᵀ * diagonal s.weights) *ᵥ s.responses := by
  have matrix : (s.designMatrix n intercept)ᵀ * diagonal s.weights * s.designMatrix n intercept =
      (NormalEquations.ofSamples (s.log.map (Design.sample n intercept))).matrix.toMatrix := by
    have without : s.ridgeMatrix n intercept 0 =
        (s.designMatrix n intercept)ᵀ * diagonal s.weights * s.designMatrix n intercept := by
      rw [ridgeMatrix, mul_zero, zero_smul, add_zero]
    ext i j
    rw [← without, ridgeMatrix_apply, mul_zero, ite_self, add_zero, Mat.toMatrix_apply,
      NormalEquations.ofSamples, Design.gram_apply, Design.total_eq_sum, List.map_map, List.map_map]
    refine congrArg List.sum (List.map_congr_left fun o _ => ?_)
    rw [mul_right_comm, mul_assoc]
    rfl
  have side : s.ridgeSide n intercept =
      (NormalEquations.ofSamples (s.log.map (Design.sample n intercept))).side.get := by
    funext i
    rw [ridgeSide_apply, NormalEquations.ofSamples, Design.moment_apply, Design.total_eq_sum,
      List.map_map, List.map_map]
    refine congrArg List.sum (List.map_congr_left fun o _ => ?_)
    exact mul_assoc _ _ _
  rw [matrix]
  change _ ↔ _ = s.ridgeSide n intercept
  rw [side]
  exact funext_iff.symm

variable [IsStrictOrderedRing K] [LeastSquares K] [LeastSquares.Lawful K]

/-- **The least-squares coefficients for rows of data** are found whatever the length of predictors
that the store is told, the number of rows and the rank of the design: they solve the normal
equations, and of the vectors at which the weighted sum of squares is least they are the shortest.
-/
theorem leastSquares_addAll (told : Option Width) {rows : List (Grid K × K × K)}
    (nonempty : rows ≠ []) (nonneg : ∀ row ∈ rows, 0 ≤ row.2.2)
    (accepted : ((empty told).addAll rows).1 = .ok ()) :
    let s := ((empty told).addAll rows).2
    s.log = rows.map Observation.ofRow ∧
      ∃ p, (∀ row ∈ rows, row.1.entries.length = p) ∧
        ∃ b : Vec K p, s.leastSquares = .ok b.toList ∧
          ((s.designMatrix p false)ᵀ * diagonal s.weights * s.designMatrix p false) *ᵥ (b ·) =
            ((s.designMatrix p false)ᵀ * diagonal s.weights) *ᵥ s.responses ∧
          IsLeastNorm (s.squares p false) (b ·) := by
  intro s
  have log : s.log = rows.map Observation.ofRow := log_addAll accepted
  obtain ⟨first, rest, rfl⟩ := List.exists_cons_of_ne_nil nonempty
  have member : Observation.ofRow first ∈ s.log := by
    rw [log]
    exact List.mem_cons_self
  have lengths : ∀ row ∈ first :: rest, row.1.entries.length = first.1.entries.length := by
    intro row inside
    have member' : Observation.ofRow row ∈ s.log := by
      rw [log]
      exact List.mem_map_of_mem inside
    exact length_eq_of_mem member' member
  have weights : ∀ x ∈ s.log.map (Design.sample first.1.entries.length false), 0 ≤ x.weight := by
    rw [log]
    exact List.forall_mem_map.2 (List.forall_mem_map.2 nonneg)
  let e := NormalEquations.ofSamples (s.log.map (Design.sample first.1.entries.length false))
  have least := Design.isLeastNorm_squares weights e.isLeastNorm_solution
  have solution := (Design.forall_squares_le_iff weights).1 least.least
  rw [squares_eq] at least
  exact ⟨log, _, lengths, e.solution, leastSquares_eq member,
    (s.isSolution_iff _ false).1 solution, least⟩

omit [Field K] [LinearOrder K] [IsStrictOrderedRing K] [LeastSquares K] [LeastSquares.Lawful K] in
/-- Of the two rows one has the weight zero. The other one does not determine two coefficients, and
of the solutions the one with equal coefficients is the shortest. -/
theorem leastSquares_addAll_collinear :
    let _ : LeastSquares ℚ := .exact ℚ
    let rows : List (Grid ℚ × ℚ × ℚ) := [(⟨[2], [1, 1]⟩, 2, 1), (⟨[2], [0, 1]⟩, 9, 0)]
    ((empty (some (.whole 2))).addAll rows).1 = .ok () ∧
      ((empty (some (.whole 2))).addAll rows).2.leastSquares = .ok [1, 1] := by
  intro _ rows
  have := LeastSquares.lawful_exact (K := ℚ)
  have accepted : ((empty (some (.whole 2))).addAll rows).1 = .ok () := rfl
  have nonneg : ∀ row ∈ rows, 0 ≤ row.2.2 := by decide +kernel
  obtain ⟨-, p, lengths, b, found, -, least⟩ :=
    leastSquares_addAll (some (.whole 2)) (List.cons_ne_nil _ _) nonneg accepted
  obtain rfl : 2 = p := lengths _ List.mem_cons_self
  -- The squares are those of the sum of both coefficients less two.
  have squares (v : Fin 2 → ℚ) :
      ((empty (some (.whole 2))).addAll rows).2.squares 2 false v = (v 0 + v 1 - 2) ^ 2 := by
    rw [← squares_eq]
    change Design.squares
      [⟨Design.row 2 false [1, 1], 2, 1⟩, ⟨Design.row 2 false [0, 1], 9, 0⟩] v = _
    simp [Design.squares, Design.product, Design.row]
  have ones : ∀ z : Fin 2 → ℚ,
      ((empty (some (.whole 2))).addAll rows).2.squares 2 false (fun _ => 1) ≤
        ((empty (some (.whole 2))).addAll rows).2.squares 2 false z := by
    intro z
    rw [squares, squares]
    norm_num
    exact sq_nonneg _
  have total : b 0 + b 1 = 2 := by
    have zero := least.least fun _ => 1
    rw [squares, squares] at zero
    norm_num at zero
    exact sub_eq_zero.1 zero
  have same : b 0 = b 1 := by
    have short := least.shortest (fun _ => 1) ones
    rw [Fin.sum_univ_two, Fin.sum_univ_two] at short
    have nothing : (b 0 - b 1) ^ 2 ≤ 0 := by nlinarith
    exact sub_eq_zero.1 ((sq_nonpos_iff _).1 nothing)
  refine ⟨accepted, found.trans (congrArg Except.ok ?_)⟩
  have first : b 0 = 1 := by linarith
  have second : b 1 = 1 := by linarith
  rw [Vec.toList_eq_ofFn, List.ofFn_succ, List.ofFn_succ, List.ofFn_zero, Fin.succ_zero_eq_one,
    first, second]

end Store

end BalanceFit
