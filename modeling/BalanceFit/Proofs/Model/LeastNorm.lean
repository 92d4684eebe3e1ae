import Mathlib.LinearAlgebra.Basis.VectorSpace
import Mathlib.LinearAlgebra.Matrix.DotProduct
import Mathlib.LinearAlgebra.Matrix.ToLin
import Mathlib.Tactic.LinearCombination
import BalanceFit.NormalEquations
import BalanceFit.Proofs.System.Solved

/-!
# Least squares in exact arithmetic

With weights that are not negative the normal equations always have a solution, whatever the rank of
the design, and their solutions are the minimizers of the weighted sum of squared residuals. One
of them is shorter than all others, because it is itself a sum of rows. The problem of bringing
`a * x` closest to `b` is the same problem, where the rows of `a` are the design rows and all
weights are one.

So the vector of least norm that comes closest to solving the normal equations is the least-squares
solution of least norm: the equations are consistent, and the distance can be brought to zero.

## Main definitions

* `IsLeastNorm` : of the vectors at which a cost is least, the shortest one
* `Design.squares`, `Mat.distance` : the weighted sum of squared residuals of samples, and the
  squared distance of the sides of a system
* `NormalEquations.IsSolution` : a solution of the normal equations
* `LeastSquares.Lawful` : arithmetics that find the vector of least norm
* `LeastSquares.exact` : the one that exists for every ordered field

## Main statements

* `Design.exists_isSolution` : normal equations are consistent
* `Design.forall_squares_le_iff` : their solutions are the minimizers
* `Design.exists_isLeastNorm`, `Design.eq_of_isLeastNorm` : exactly one minimizer is the shortest
* `NormalEquations.isLeastNorm_solution` : it is the one that a lawful arithmetic finds
-/

namespace BalanceFit

open Matrix

variable {K : Type} [Field K] {m n p : Nat}

/-- Of the vectors at which a cost is least, `x` is the shortest. -/
structure IsLeastNorm [LE K] (cost : (Fin p → K) → K) (x : Fin p → K) : Prop where
  least : ∀ y, cost x ≤ cost y
  shortest : ∀ y, (∀ z, cost y ≤ cost z) → ∑ i, x i ^ 2 ≤ ∑ i, y i ^ 2

/-- Which vectors are the shortest depends on the minimizers of a cost alone. -/
theorem IsLeastNorm.congr [LE K] {cost cost' : (Fin p → K) → K} {x : Fin p → K}
    (same : ∀ x, (∀ y, cost x ≤ cost y) ↔ ∀ y, cost' x ≤ cost' y) (h : IsLeastNorm cost x) :
    IsLeastNorm cost' x :=
  ⟨(same x).1 h.least, fun y least => h.shortest y ((same y).2 least)⟩

/-- Shortest minimizers are taken to shortest minimizers by a function that keeps lengths, is onto,
and takes one cost to the other one. -/
theorem IsLeastNorm.image [LE K] {cost cost' : (Fin p → K) → K} {x : Fin p → K}
    {f : (Fin p → K) → Fin p → K} (onto : Function.Surjective f)
    (costs : ∀ x, cost' (f x) = cost x) (lengths : ∀ x, ∑ i, f x i ^ 2 = ∑ i, x i ^ 2)
    (h : IsLeastNorm cost x) : IsLeastNorm cost' (f x) := by
  constructor
  · intro y
    obtain ⟨y, rfl⟩ := onto y
    rw [costs, costs]
    exact h.least y
  · intro y least
    obtain ⟨y, rfl⟩ := onto y
    rw [lengths, lengths]
    refine h.shortest y fun z => ?_
    rw [← costs, ← costs]
    exact least (f z)

/-- A vector that is orthogonal to everything that a matrix annihilates from the left is among its
values: otherwise some linear function would vanish on the values and not on the vector. -/
theorem exists_mulVec_eq {a : Matrix (Fin m) (Fin n) K} {b : Fin m → K}
    (orthogonal : ∀ v, v ᵥ* a = 0 → v ⬝ᵥ b = 0) : ∃ x, a *ᵥ x = b := by
  by_contra none
  have outside : b ∉ LinearMap.range a.mulVecLin := fun ⟨x, value⟩ => none ⟨x, value⟩
  obtain ⟨f, apart, vanishes⟩ := Submodule.exists_le_ker_of_notMem outside
  -- The function is the product with the vector of its values at the unit vectors.
  let v : Fin m → K := fun i => f (Pi.single i 1)
  have function (w : Fin m → K) : f w = v ⬝ᵥ w := by
    conv_lhs => rw [pi_eq_sum_univ w]
    simp only [map_sum, map_smul, smul_eq_mul, dotProduct, v]
    refine Finset.sum_congr rfl fun i _ => ?_
    rw [mul_comm]
    congr 2
    ext j
    simp [Pi.single_apply, eq_comm]
  refine apart ((function b).trans (orthogonal v ?_))
  apply dotProduct_eq_zero
  intro x
  rw [← dotProduct_mulVec, ← function]
  exact vanishes ⟨x, rfl⟩

variable [LinearOrder K]

/-- The vector solves the normal equations. -/
def NormalEquations.IsSolution (e : NormalEquations K p) (x : Fin p → K) : Prop :=
  ∀ i, e.matrix.mulVec x i = e.side i

namespace Design

variable {samples : List (Sample K p)} {x y : Fin p → K}

/-- The weighted sum of the squared residuals of samples. -/
def squares (samples : List (Sample K p)) (v : Fin p → K) : K :=
  (samples.map fun s => s.weight * (product s.row v - s.y) ^ 2).sum

/-- The vector that a sum of outer products yields, times another vector. -/
theorem sum_mulVec_gram_mul (terms : List (Vec K p × K)) (x v : Fin p → K) :
    ∑ i, (gram terms).mulVec x i * v i =
      (terms.map fun t => t.2 * product t.1 x * product t.1 v).sum := by
  simp only [mulVec_gram, sum_moment_mul, List.map_map]
  rfl

/-- So it makes no difference which of the two vectors is the other one. -/
theorem sum_mulVec_gram_comm (terms : List (Vec K p × K)) (x v : Fin p → K) :
    ∑ i, (gram terms).mulVec x i * v i = ∑ i, (gram terms).mulVec v i * x i := by
  simp only [sum_mulVec_gram_mul, mul_right_comm]

/-- Away from a solution of the normal equations the sum of squares grows by the quadratic form of
their matrix. -/
theorem squares_eq (solution : (NormalEquations.ofSamples samples).IsSolution x) (y : Fin p → K) :
    squares samples y =
      squares samples x + (NormalEquations.ofSamples samples).matrix.form (y - x) := by
  let e := NormalEquations.ofSamples samples
  -- The linear terms add up to the product of the equations with the difference, which is zero.
  let linear (s : Sample K p) := s.weight * (product s.row x - s.y) * product s.row (y - x)
  have cancelled : (samples.map linear).sum = 0 := by
    have sides : ∑ i, e.matrix.mulVec x i * (y - x) i = ∑ i, e.side i * (y - x) i :=
      Finset.sum_congr rfl fun i _ => by rw [solution i]
    simp only [e, NormalEquations.ofSamples, sum_mulVec_gram_mul, sum_moment_mul,
      List.map_map] at sides
    apply add_eq_right.1 (Eq.trans _ sides)
    rw [← List.sum_map_add]
    refine congrArg List.sum (List.map_congr_left fun s _ => ?_)
    simp only [linear, Function.comp_apply]
    ring
  have expanded (s : Sample K p) : s.weight * (product s.row y - s.y) ^ 2 =
      s.weight * (product s.row x - s.y) ^ 2 + s.weight * product s.row (y - x) ^ 2 +
        2 * linear s := by
    simp only [linear, product_sub]
    ring
  rw [NormalEquations.ofSamples, form_gram, List.map_map, squares, squares]
  simp only [expanded, List.sum_map_add, List.sum_map_mul_left, cancelled, mul_zero, add_zero]
  rfl

section Ordered

variable [IsStrictOrderedRing K]

/-- If the coefficients are not negative, a vector at which the quadratic form is zero is taken to
zero. -/
theorem mulVec_gram_eq_zero_of_form {terms : List (Vec K p × K)} (nonneg : ∀ t ∈ terms, 0 ≤ t.2)
    {v : Fin p → K} (zero : (gram terms).form v = 0) : (gram terms).mulVec v = 0 :=
  mulVec_gram_eq_zero fun _ member => mul_product_eq_zero nonneg zero member

omit [IsStrictOrderedRing K] in
theorem coefficients_nonneg (nonneg : ∀ s ∈ samples, 0 ≤ s.weight) :
    ∀ t ∈ samples.map fun s => (s.row, s.weight), 0 ≤ t.2 :=
  List.forall_mem_map.2 nonneg

/-- **Normal equations are consistent**, and one of their solutions is a sum of rows. Otherwise a
vector that their matrix takes to zero would not be orthogonal to the other side, though it is
orthogonal to every row that has a weight. -/
theorem exists_isSolution (nonneg : ∀ s ∈ samples, 0 ≤ s.weight) :
    let e := NormalEquations.ofSamples samples
    ∃ z, e.IsSolution (e.matrix.mulVec z) := by
  intro e
  have symmetric : e.matrix.toMatrixᵀ = e.matrix.toMatrix := by
    ext i j
    exact gram_symm _ j i
  have orthogonal (v : Fin p → K) (annihilated : v ᵥ* (e.matrix.toMatrix * e.matrix.toMatrix) = 0) :
      v ⬝ᵥ (e.side ·) = 0 := by
    rw [← Matrix.vecMul_vecMul, ← symmetric, Matrix.vecMul_transpose,
      Matrix.vecMul_transpose] at annihilated
    -- What the matrix annihilates twice it annihilates once.
    have once : e.matrix.mulVec v = 0 := by
      rw [← dotProduct_self_eq_zero]
      refine (sum_mulVec_gram_comm _ v (e.matrix.mulVec v)).trans (Finset.sum_eq_zero fun i _ => ?_)
      exact mul_eq_zero_of_left (congrFun annihilated i) _
    have form : e.matrix.form v = 0 :=
      Finset.sum_eq_zero fun i _ => mul_eq_zero_of_right _ (congrFun once i)
    have rows := fun t => mul_product_eq_zero (t := t) (coefficients_nonneg nonneg) form
    rw [dotProduct_comm]
    refine (sum_moment_mul _ v).trans ?_
    rw [List.map_map]
    refine List.sum_eq_zero fun x member => ?_
    obtain ⟨s, inside, rfl⟩ := List.mem_map.1 member
    have row := rows _ (List.mem_map_of_mem inside)
    simp only [Function.comp_apply] at row ⊢
    rw [mul_right_comm, row, zero_mul]
  obtain ⟨z, solves⟩ := exists_mulVec_eq orthogonal
  refine ⟨z, fun i => ?_⟩
  rw [← Matrix.mulVec_mulVec] at solves
  exact congrFun solves i

/-- **The solutions of the normal equations are the minimizers** of the weighted sum of squares. -/
theorem forall_squares_le_iff (nonneg : ∀ s ∈ samples, 0 ≤ s.weight) :
    (∀ y, squares samples x ≤ squares samples y) ↔
      (NormalEquations.ofSamples samples).IsSolution x := by
  let e := NormalEquations.ofSamples samples
  have form_nonneg (v : Fin p → K) : 0 ≤ e.matrix.form v :=
    form_gram_nonneg (coefficients_nonneg nonneg) v
  constructor
  · intro least
    obtain ⟨z, solution⟩ := exists_isSolution nonneg
    -- The difference from some solution has the form zero, so it is taken to zero.
    let x₀ := e.matrix.mulVec z
    have grown : squares samples x = squares samples x₀ + e.matrix.form (x - x₀) :=
      squares_eq solution x
    have form_zero : e.matrix.form (x - x₀) = 0 := by
      have bound := least x₀
      exact le_antisymm (by linarith) (form_nonneg _)
    have difference : e.matrix.mulVec (x - x₀) = 0 :=
      mulVec_gram_eq_zero_of_form (coefficients_nonneg nonneg) form_zero
    have same : e.matrix.mulVec x = e.matrix.mulVec x₀ :=
      sub_eq_zero.1 ((Matrix.mulVec_sub e.matrix.toMatrix x x₀).symm.trans difference)
    intro i
    exact (congrFun same i).trans (solution i)
  · intro solution y
    rw [squares_eq solution y]
    exact le_add_of_nonneg_right (form_nonneg _)

/-- Some minimizer is the shortest: the one that is a sum of rows, for it is orthogonal to the
difference of any two minimizers. -/
theorem exists_isLeastNorm (nonneg : ∀ s ∈ samples, 0 ≤ s.weight) :
    ∃ x, IsLeastNorm (squares samples) x := by
  let e := NormalEquations.ofSamples samples
  obtain ⟨z, solution⟩ := exists_isSolution nonneg
  let x := e.matrix.mulVec z
  refine ⟨x, (forall_squares_le_iff nonneg).2 solution, fun y least => ?_⟩
  have solution' := (forall_squares_le_iff nonneg).1 least
  have difference : e.matrix.mulVec (y - x) = 0 := by
    funext i
    have same : e.matrix.mulVec y i = e.matrix.mulVec x i := (solution' i).trans (solution i).symm
    exact (congrFun (Matrix.mulVec_sub e.matrix.toMatrix y x) i).trans (sub_eq_zero.2 same)
  have orthogonal : ∑ i, x i * (y - x) i = 0 := by
    refine (sum_mulVec_gram_comm _ z (y - x)).trans (Finset.sum_eq_zero fun i _ => ?_)
    exact mul_eq_zero_of_left (congrFun difference i) _
  calc
    ∑ i, x i ^ 2 ≤ ∑ i, x i ^ 2 + ∑ i, (y - x) i ^ 2 :=
      le_add_of_nonneg_right (Finset.sum_nonneg fun i _ => sq_nonneg _)
    _ = ∑ i, x i ^ 2 + ∑ i, (y - x) i ^ 2 + 2 * ∑ i, x i * (y - x) i := by
      rw [orthogonal, mul_zero, add_zero]
    _ = ∑ i, y i ^ 2 := by
      rw [Finset.mul_sum, ← Finset.sum_add_distrib, ← Finset.sum_add_distrib]
      refine Finset.sum_congr rfl fun i _ => ?_
      rw [Pi.sub_apply]
      ring

/-- **There is only one**: the vector half way between two minimizers is a minimizer too, and
shorter than both if they differ and have one length. -/
theorem eq_of_isLeastNorm (nonneg : ∀ s ∈ samples, 0 ≤ s.weight)
    (h : IsLeastNorm (squares samples) x) (h' : IsLeastNorm (squares samples) y) : x = y := by
  let e := NormalEquations.ofSamples samples
  let middle : Fin p → K := (1 / 2 : K) • (x + y)
  have solution := (forall_squares_le_iff nonneg).1 h.least
  have solution' := (forall_squares_le_iff nonneg).1 h'.least
  have least : ∀ z, squares samples middle ≤ squares samples z := by
    refine (forall_squares_le_iff nonneg).2 fun i => ?_
    have value :
        e.matrix.mulVec middle = (1 / 2 : K) • (e.matrix.mulVec x + e.matrix.mulVec y) := by
      change e.matrix.toMatrix *ᵥ ((1 / 2 : K) • (x + y)) = _
      rw [Matrix.mulVec_smul, Matrix.mulVec_add]
      rfl
    refine (congrFun value i).trans ?_
    rw [Pi.smul_apply, Pi.add_apply, solution i, solution' i, smul_eq_mul]
    ring
  have apart : ∑ i, (x i - y i) ^ 2 + 4 * ∑ i, middle i ^ 2 =
      2 * ∑ i, x i ^ 2 + 2 * ∑ i, y i ^ 2 := by
    simp only [Finset.mul_sum, ← Finset.sum_add_distrib]
    refine Finset.sum_congr rfl fun i _ => ?_
    change (x i - y i) ^ 2 + 4 * (1 / 2 * (x i + y i)) ^ 2 = _
    ring
  have nothing : ∑ i, (x i - y i) ^ 2 = 0 := by
    have first := h.shortest middle least
    have second := h'.shortest middle least
    exact le_antisymm (by linarith) (Finset.sum_nonneg fun i _ => sq_nonneg _)
  funext i
  have square := (Finset.sum_eq_zero_iff_of_nonneg fun i _ => sq_nonneg (x i - y i)).1 nothing i
    (Finset.mem_univ i)
  exact sub_eq_zero.1 (pow_eq_zero_iff two_ne_zero |>.1 square)

end Ordered

end Design

/-- The squared distance of the sides of a system at a vector. -/
def Mat.distance (a : Mat K n n) (b : Vec K n) (v : Fin n → K) : K :=
  ∑ i, (a.mulVec v i - b i) ^ 2

/-- The rows of a system, as samples of weight one. -/
def Mat.rows (a : Mat K n n) (b : Vec K n) : List (Sample K n) :=
  List.ofFn fun i => ⟨a i, b i, 1⟩

theorem Mat.squares_rows (a : Mat K n n) (b : Vec K n) :
    Design.squares (a.rows b) = a.distance b := by
  funext v
  rw [Design.squares, rows, List.map_ofFn, List.sum_ofFn, distance]
  refine Finset.sum_congr rfl fun i _ => ?_
  exact one_mul _

/-- An arithmetic whose procedure for square systems always finds what it is meant to find. -/
class LeastSquares.Lawful (K : Type) [Field K] [LinearOrder K] [LeastSquares K] : Prop where
  exists_minNorm : ∀ {n : Nat} (a : Mat K n n) (b : Vec K n),
    ∃ x, LeastSquares.minNorm? a b = some x ∧ IsLeastNorm (a.distance b) (x ·)

section Ordered

variable [IsStrictOrderedRing K]

theorem Mat.weight_of_mem_rows {a : Mat K n n} {b : Vec K n} : ∀ s ∈ a.rows b, 0 ≤ s.weight := by
  intro s member
  obtain ⟨i, rfl⟩ := List.mem_ofFn.1 member
  exact zero_le_one

/-- The sides of every system come closest at exactly one vector of least norm. -/
theorem Mat.exists_isLeastNorm (a : Mat K n n) (b : Vec K n) :
    ∃ x, IsLeastNorm (a.distance b) x := by
  rw [← squares_rows]
  exact Design.exists_isLeastNorm weight_of_mem_rows

theorem Mat.eq_of_isLeastNorm {a : Mat K n n} {b : Vec K n} {x y : Fin n → K}
    (h : IsLeastNorm (a.distance b) x) (h' : IsLeastNorm (a.distance b) y) : x = y := by
  rw [← squares_rows] at h h'
  exact Design.eq_of_isLeastNorm weight_of_mem_rows h h'

/-- The vector that comes closest to solving the normal equations is the least-squares solution:
because the equations are consistent, it solves them. -/
theorem Design.isLeastNorm_squares {samples : List (Sample K p)} {x : Fin p → K}
    (nonneg : ∀ s ∈ samples, 0 ≤ s.weight)
    (h : IsLeastNorm ((NormalEquations.ofSamples samples).matrix.distance
      (NormalEquations.ofSamples samples).side) x) : IsLeastNorm (squares samples) x := by
  let e := NormalEquations.ofSamples samples
  refine h.congr fun x => Iff.trans ?_ (forall_squares_le_iff nonneg).symm
  have distance_nonneg (y : Fin p → K) : 0 ≤ e.matrix.distance e.side y :=
    Finset.sum_nonneg fun i _ => sq_nonneg _
  have distance_eq_zero_iff (y : Fin p → K) :
      e.matrix.distance e.side y = 0 ↔ e.IsSolution y := by
    rw [Mat.distance, Finset.sum_eq_zero_iff_of_nonneg fun i _ => sq_nonneg _]
    simp [sub_eq_zero, NormalEquations.IsSolution]
  rw [← distance_eq_zero_iff]
  constructor
  · intro least
    obtain ⟨z, solution⟩ := exists_isSolution nonneg
    exact le_antisymm (((distance_eq_zero_iff _).2 solution) ▸ least _) (distance_nonneg x)
  · intro zero y
    exact zero.le.trans (distance_nonneg y)

/-- Exact least squares, where the vector of least norm is chosen among all vectors. -/
@[reducible] noncomputable def LeastSquares.exact (K : Type) [Field K] [LinearOrder K]
    [IsStrictOrderedRing K] : LeastSquares K where
  minNorm? a b := some (.ofFn (Classical.choose (a.exists_isLeastNorm b)))

theorem LeastSquares.lawful_exact : @Lawful K _ _ (exact K) := by
  let _ := exact K
  refine ⟨fun a b => ⟨_, rfl, ?_⟩⟩
  simp only [Vec.ofFn_apply]
  exact Classical.choose_spec (a.exists_isLeastNorm b)

end Ordered

/-- A lawful arithmetic solves normal equations as well as they can be solved. -/
theorem NormalEquations.isLeastNorm_solution [LeastSquares K] [LeastSquares.Lawful K]
    (e : NormalEquations K p) : IsLeastNorm (e.matrix.distance e.side) (e.solution ·) := by
  obtain ⟨x, found, least⟩ := LeastSquares.Lawful.exists_minNorm e.matrix e.side
  have finite : e.isFinite = true := by
    rw [isFinite, Mat.isFinite_eq_true, Vec.isFinite_eq_true]
    rfl
  rw [solution, if_pos finite, found]
  exact least

end BalanceFit
