import Mathlib.Algebra.Field.Rat
import Mathlib.Algebra.Order.Ring.Rat
import Mathlib.LinearAlgebra.Matrix.DotProduct
import Mathlib.Tactic.NormNum
import BalanceFit.Proofs.Fitter.LeastSquares
import BalanceFit.Proofs.Newton.Symmetry

/-!
# The order and the signs of predictors

If the entries of all predictors are put in another order, and some of them get another sign, then a
fit takes the course that it would have taken, with its coefficients in that order and with those
signs. An intercept stays where it is. The warm start is not determined by what it fits best alone:
that it is the shortest of such vectors does not depend on order and signs.

## Main definitions

* `Observation.rearranged` : the observation with its predictor in another order
* `NormalEquations.transformed` : the normal equations in another basis

## Main statements

* `NormalEquations.solution_transformed` : the vector of least norm in a basis that keeps lengths
* `GeneralizedLinear.ridgeSystem_rearranged`, `GeneralizedLinear.start_rearranged` : the systems
  along the iteration, and where it begins
* `GeneralizedLinear.solve_rearranged` : the result of a fit
-/

namespace BalanceFit

open Matrix

/-- The result with its coefficients brought to one form and then to another. -/
theorem FitResult.map_map {U V W α : Type} (f : V → W) (h : U → V) (r : FitResult U α) :
    (r.map h).map f = r.map (f ∘ h) := by
  simp only [FitResult.map, Option.map_map, Function.comp_def, List.map_map]

variable {K : Type} [Field K] {n p : Nat}

/-- The observation with the entries of its predictor in another order, and with other signs. -/
def Observation.rearranged (π : SignedPerm p) (o : Observation K) : Observation K :=
  { o with x := π.applyList o.x }

/-- The same for the coefficients, where an intercept stays as it is. -/
def GeneralizedLinear.extended (g : GeneralizedLinear K) (π : SignedPerm p) :
    SignedPerm (g.dim p) :=
  π.extend g.intercept.toNat

/-- Normal equations in another basis. -/
def NormalEquations.transformed (t : Matrix (Fin n) (Fin n) K) (e : NormalEquations K n) :
    NormalEquations K n where
  matrix := e.matrix.transformed t
  side := e.side.transformed t

/-- A design row with its predictor in another order. -/
theorem Design.row_rearranged (g : GeneralizedLinear K) (π : SignedPerm p) {x : List K}
    (length : x.length = p) :
    Design.row (g.dim p) g.intercept (π.applyList x) =
      (g.extended π).apply (Design.row (g.dim p) g.intercept x) := by
  have entries : (Vec.ofListPadded p x).toList = x := by
    rw [Vec.toList_ofListPadded, ← length, resize_length_self]
  have extended (l : List K) :
      (g.extended π).apply (.ofListPadded (g.dim p) (x ++ l)) =
        .ofListPadded (g.dim p) (π.applyList x ++ l) := by
    have appended := π.extend_apply_append g.intercept.toNat (.ofListPadded p x) l
    rw [entries] at appended
    exact appended
  rw [row, row]
  cases g.intercept with
  | false =>
    have padded := extended []
    rw [List.append_nil, List.append_nil] at padded
    exact padded.symm
  | true => exact (extended [1]).symm

/-- A change of the basis that keeps lengths keeps sums of squares. -/
theorem sum_sq_mulVec {t : Matrix (Fin n) (Fin n) K} (orthogonal : tᵀ * t = 1) (v : Fin n → K) :
    ∑ i, (t *ᵥ v) i ^ 2 = ∑ i, v i ^ 2 := by
  simp only [sq]
  change (t *ᵥ v) ⬝ᵥ (t *ᵥ v) = v ⬝ᵥ v
  rw [dotProduct_mulVec, ← mulVec_transpose, mulVec_mulVec, orthogonal, one_mulVec]

variable [LinearOrder K]

/-- So a sample is in another basis. -/
theorem Design.sample_rearranged (g : GeneralizedLinear K) (π : SignedPerm p) {o : Observation K}
    (length : o.x.length = p) :
    Design.sample (g.dim p) g.intercept (o.rearranged π) =
      (Design.sample (g.dim p) g.intercept o).transformed ((g.extended π).matrix K) := by
  rw [sample, sample, Sample.transformed, SignedPerm.transformed_matrix]
  exact congrArg (Sample.mk · o.y o.weight) (row_rearranged g π length)

namespace NormalEquations

theorem ofSamples_transformed (t : Matrix (Fin n) (Fin n) K) (samples : List (Sample K n)) :
    ofSamples (samples.map (Sample.transformed t)) = (ofSamples samples).transformed t := by
  rw [ofSamples, ofSamples, transformed, ← Design.gram_transformed, ← Design.moment_transformed]
  simp only [List.map_map]
  rfl

/-- In a basis that keeps lengths the sides are as far apart as before. -/
theorem distance_transformed {t : Matrix (Fin n) (Fin n) K} (orthogonal : tᵀ * t = 1)
    (e : NormalEquations K n) (v : Fin n → K) :
    (e.transformed t).matrix.distance (e.transformed t).side (t *ᵥ v) =
      e.matrix.distance e.side v := by
  have sides : (e.transformed t).matrix.mulVec (t *ᵥ v) - (e.transformed t).side.get =
      t *ᵥ (e.matrix.mulVec v - e.side.get) := by
    have product : (e.transformed t).matrix.mulVec (t *ᵥ v) = t *ᵥ e.matrix.mulVec v := by
      rw [← Mat.mulVec_toMatrix, ← Mat.mulVec_toMatrix, transformed, Mat.toMatrix_transformed,
        mulVec_mulVec, Matrix.mul_assoc, orthogonal, Matrix.mul_one, mulVec_mulVec]
    have side : (e.transformed t).side.get = t *ᵥ e.side.get :=
      funext (Vec.transformed_apply t e.side)
    rw [product, side, mulVec_sub]
  have squares := sum_sq_mulVec orthogonal (e.matrix.mulVec v - e.side.get)
  rw [← sides] at squares
  exact squares

variable [IsStrictOrderedRing K] [LeastSquares K] [LeastSquares.Lawful K]

/-- **The solution of least norm in a basis that keeps lengths.** -/
theorem solution_transformed {t : Matrix (Fin n) (Fin n) K} (orthogonal : tᵀ * t = 1)
    (e : NormalEquations K n) : (e.transformed t).solution = e.solution.transformed t := by
  have onto : Function.Surjective (t *ᵥ · : (Fin n → K) → Fin n → K) := by
    intro v
    refine ⟨tᵀ *ᵥ v, ?_⟩
    change t *ᵥ (tᵀ *ᵥ v) = v
    rw [mulVec_mulVec, mul_eq_one_comm.1 orthogonal, one_mulVec]
  have least := e.isLeastNorm_solution.image onto (e.distance_transformed orthogonal)
    (sum_sq_mulVec orthogonal)
  ext i
  rw [Vec.transformed_apply]
  exact congrFun (Mat.eq_of_isLeastNorm (e.transformed t).isLeastNorm_solution least) i

end NormalEquations

namespace GeneralizedLinear

open Newton

variable {σ : Type} [Transcendental K] {g : GeneralizedLinear K} {f : Family K} {config : Config K}
  {store store' : Store K} {observer : Option (Observer σ K)} {o : Observation K}
  {log : List (Observation K)}

theorem ridgeSystem_rearranged (π : SignedPerm p) (lengths : ∀ o ∈ log, o.x.length = p)
    (b : Vec K (g.dim p)) :
    g.ridgeSystem f config (log.map (Observation.rearranged π)) ((g.extended π).apply b) =
      (g.ridgeSystem f config log b).transformed ((g.extended π).matrix K) := by
  have samples : (log.map (Observation.rearranged π)).map (Design.sample (g.dim p) g.intercept) =
      (log.map (Design.sample (g.dim p) g.intercept)).map
        (Sample.transformed ((g.extended π).matrix K)) := by
    rw [List.map_map, List.map_map]
    exact List.map_congr_left fun o member => Design.sample_rearranged g π (lengths o member)
  rw [ridgeSystem, ridgeSystem, samples,
    f.system_transformed _ ((g.extended π).transpose_mulVec_apply b),
    ← System.regularize_transformed (g.extended π).matrix_mul_transpose,
    SignedPerm.transformed_matrix]

variable [IsStrictOrderedRing K] [LeastSquares K] [LeastSquares.Lawful K]

theorem start_rearranged (π : SignedPerm p) (log : List (Observation K)) :
    g.start f p (log.map (Observation.rearranged π)) =
      (g.extended π).apply (g.start f p log) := by
  have equations : normalEquations f p (log.map (Observation.rearranged π)) =
      (normalEquations f p log).transformed (π.matrix K) := by
    rw [normalEquations, normalEquations, ← NormalEquations.ofSamples_transformed, List.map_map,
      List.map_map]
    refine congrArg NormalEquations.ofSamples (List.map_congr_left fun o _ => ?_)
    -- The rows of the warm start have no intercept.
    have row : Design.row p false (π.applyList o.x) =
        (Design.row p false o.x).transformed (π.matrix K) :=
      (Vec.ofListPadded_toList _).trans (π.transformed_matrix _).symm
    exact congrArg (Sample.mk · (f.link o.y) o.weight) row
  have solution : (normalEquations f p (log.map (Observation.rearranged π))).solution =
      π.apply (normalEquations f p log).solution := by
    rw [equations, NormalEquations.solution_transformed (mul_eq_one_comm.1 π.matrix_mul_transpose),
      π.transformed_matrix]
  have padded := π.extend_apply_append g.intercept.toNat (normalEquations f p log).solution []
  rw [List.append_nil, List.append_nil] at padded
  rw [start, start, solution]
  exact padded.symm

/-- **The order and the signs of predictors have no part in a fit.** A fit has a result unless
something keeps it from its iteration. If the entries of all predictors are put in another order and
get other signs, then so do the coefficients of the result and of its history, where an intercept
stays as it is; and the result is the same in all other respects. -/
theorem solve_rearranged (family : g.family = some f) (accepted : config.accepted = true)
    (passive : ∀ o ∈ observer, o.Passive) (member : o ∈ store.log) (π : SignedPerm o.x.length)
    (log : store'.log = store.log.map (Observation.rearranged π)) (u : σ) :
    ∃ r : FitResult (List K) K,
      (Run.start u (Fitter.solve ⟨g.model.lift, config, store⟩ observer)).1 =
        (g.prepare config o.x.length).map (fun _ => r) ∧
      (Run.start u (Fitter.solve ⟨g.model.lift, config, store'⟩ observer)).1 =
        (g.prepare config o.x.length).map
          (fun _ => r.map (g.extended π).applyList) := by
  let π' := g.extended π
  have length : (o.rearranged π).x.length = o.x.length := Vec.length_toList _
  have member' : o.rearranged π ∈ store'.log := by
    rw [log]
    exact List.mem_map_of_mem member
  have lengths : ∀ o' ∈ store.log, o'.x.length = o.x.length :=
    fun o' member' => Store.length_eq_of_mem member' member
  have corresponding (b : Vec K (g.dim o.x.length)) :
      g.ridgeSystem f config store'.log (π'.apply b) =
        (g.ridgeSystem f config store.log b).transformed (π'.matrix K) := by
    rw [log]
    exact ridgeSystem_rearranged π lengths b
  have start : g.start f o.x.length store'.log = π'.apply (g.start f o.x.length store.log) := by
    rw [log]
    exact start_rearranged π store.log
  refine ⟨_, solve_eq_firstStop family accepted passive member u, ?_⟩
  refine (solve_eq_firstStop family accepted passive member' u).trans ?_
  rw [length, start, firstStop_transformed π' corresponding, FitResult.map_map, FitResult.map_map]
  -- To make lists of the coefficients and to rearrange them can be done in any order.
  have lists : Vec.toList ∘ π'.apply = π'.applyList ∘ (Vec.toList : Vec K _ → List K) :=
    funext fun b => (π'.applyList_toList b).symm
  rw [lists]

omit [Field K] [LinearOrder K] [IsStrictOrderedRing K] [Transcendental K] [LeastSquares K]
  [LeastSquares.Lawful K] in
/-- One observation, which the first predictor alone accounts for. If the two predictors change
places, and the second one its sign, the coefficients do, too. -/
theorem solve_rearranged_exchanged :
    let _ : Transcendental ℚ := ⟨id, id, id, id⟩
    let _ : LeastSquares ℚ := .exact ℚ
    let g : GeneralizedLinear ℚ := ⟨some .linear, true⟩
    let config : Config ℚ := ⟨0, 0, 0, 0, 1, .level 0, true⟩
    let store : Store ℚ := .ofLog 2 [⟨[1, 0], 1, 1⟩] (by simp)
    let store' : Store ℚ := .ofLog 2 [⟨[0, -1], 1, 1⟩] (by simp)
    let fit (store : Store ℚ) :=
      (Run.start () (Fitter.solve ⟨g.model.lift, config, store⟩ (some Observer.idle))).1
    fit store = .ok ⟨.converged, [1, 0, 0], 1, 0, some [[1, 0, 0]]⟩ ∧
      fit store' = .ok ⟨.converged, [0, -1, 0], 1, 0, some [[0, -1, 0]]⟩ := by
  intro _ _ g config store store' fit
  have := LeastSquares.lawful_exact (K := ℚ)
  let o : Observation ℚ := ⟨[1, 0], 1, 1⟩
  have accepted : config.accepted = true := by decide +kernel
  have member : o ∈ store.log := List.mem_singleton_self o
  have prepared : g.prepare config 2 = .ok () := prepare_of_room config (room_of_le (by decide))
  have start : g.start .linear 2 store.log = .ofList [1, 0, 0] := by
    let samples := store.log.map fun o => Design.sample 2 false (Family.linear.linked o)
    let e := NormalEquations.ofSamples samples
    have weights : ∀ s ∈ samples, 0 ≤ s.weight := by decide +kernel
    -- The squares are those of the first coefficient less one.
    have squares (v : Fin 2 → ℚ) : Design.squares samples v = (v 0 - 1) ^ 2 := by
      change Design.squares [Design.sample 2 false o] v = _
      simp [Design.squares, Design.product, Design.sample, Design.row, o]
    have least : IsLeastNorm (Design.squares samples) ![1, 0] := by
      constructor
      · intro y
        rw [squares, squares]
        norm_num
        exact sq_nonneg _
      · intro y least
        have zero := least ![1, 0]
        rw [squares, squares] at zero
        norm_num at zero
        rw [Fin.sum_univ_two, Fin.sum_univ_two, sub_eq_zero.1 zero]
        norm_num
        exact sq_nonneg _
    have found := Design.eq_of_isLeastNorm weights
      (Design.isLeastNorm_squares weights e.isLeastNorm_solution) least
    have solution : e.solution = .ofList [1, 0] := by
      ext i
      refine (congrFun found i).trans ?_
      fin_cases i <;> rfl
    change Vec.ofListPadded 3 e.solution.toList = _
    rw [solution]
    decide +kernel
  have fitted : fit store = .ok ⟨.converged, [1, 0, 0], 1, 0, some [[1, 0, 0]]⟩ := by
    refine (solve_eq_firstStop (g := g) rfl accepted Observer.passive_idle member ()).trans ?_
    change (g.prepare config 2).map (fun _ => (firstStop config
      (g.ridgeSystem .linear config store.log) (g.start .linear 2 store.log)).map Vec.toList) = _
    rw [prepared, start]
    decide +kernel
  let π : SignedPerm 2 := ⟨Equiv.swap 0 1, ![1, -1]⟩
  have log : store'.log = store.log.map (Observation.rearranged π) := by decide +kernel
  obtain ⟨r, before, after⟩ :=
    solve_rearranged (g := g) rfl accepted Observer.passive_idle member π log ()
  change _ = (g.prepare config 2).map _ at before after
  rw [prepared] at before after
  have result : r = ⟨.converged, [1, 0, 0], 1, 0, some [[1, 0, 0]]⟩ :=
    Except.ok.inj (before.symm.trans fitted)
  refine ⟨fitted, after.trans ?_⟩
  rw [result]
  decide +kernel

end GeneralizedLinear

end BalanceFit
