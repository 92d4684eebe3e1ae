import Mathlib.Algebra.BigOperators.Field
import Mathlib.Algebra.BigOperators.Fin
import Mathlib.Algebra.BigOperators.Ring.List
import Mathlib.Algebra.Field.Rat
import Mathlib.Algebra.Order.Field.Basic
import Mathlib.Algebra.Order.Ring.Abs
import Mathlib.Algebra.Order.Ring.Rat
import Mathlib.Analysis.SpecialFunctions.Log.Basic
import Mathlib.Analysis.SpecialFunctions.Sigmoid
import Mathlib.LinearAlgebra.Matrix.DotProduct
import Mathlib.LinearAlgebra.Matrix.ToLinearEquiv
import Mathlib.Tactic.Linarith
import Mathlib.Tactic.Ring
import BalanceFit.Proofs.Fitter.LeastSquares
import BalanceFit.Proofs.Newton.Units

/-!
# The unit of weights

If all weights are multiplied by a positive number, and with them the ridge and the thresholds for
the totals of balances and Jacobians, a fit takes the same course. The normal equations of the warm
start get the factor on both sides, so they are as far from being solved as before, up to the square
of the factor; and every balance and Jacobian gets the factor.

## Main definitions

* `Observation.rescaled`, `Sample.rescaled` : weights in another unit

## Main statements

* `NormalEquations.solution_rescaled` : a common factor makes no difference to the vector of least
  norm
* `Family.system_rescaled` : balances and Jacobians have the unit of the weights
* `GeneralizedLinear.solve_rescaled` : the result of a fit in another unit
-/

namespace BalanceFit

variable {K : Type} [Field K] {p : Nat}

/-- The observation with its weight in another unit. -/
def Observation.rescaled (c : K) (o : Observation K) : Observation K :=
  { o with weight := o.weight * c }

/-- The sample with its weight in another unit. -/
def Sample.rescaled (c : K) (s : Sample K p) : Sample K p := { s with weight := s.weight * c }

variable [LinearOrder K]

namespace Design

theorem moment_map_mul (terms : List (Vec K p × K)) (c : K) :
    moment (terms.map fun t => (t.1, t.2 * c)) = (moment terms).map (· * c) := by
  ext i
  rw [moment_apply, Vec.map_apply, moment_apply, total_eq_sum, total_eq_sum, List.map_map,
    ← List.sum_map_mul_right]
  refine congrArg List.sum (List.map_congr_left fun t _ => ?_)
  exact (mul_assoc (t.1 i) t.2 c).symm

theorem gram_map_mul (terms : List (Vec K p × K)) (c : K) :
    gram (terms.map fun t => (t.1, t.2 * c)) = Vec.map (Vec.map (· * c)) (gram terms) := by
  ext i j
  rw [gram_apply, Vec.map_apply, Vec.map_apply, gram_apply, total_eq_sum, total_eq_sum,
    List.map_map, ← List.sum_map_mul_right]
  refine congrArg List.sum (List.map_congr_left fun t _ => ?_)
  change t.1 i * (t.1 j * (t.2 * c)) = t.1 i * (t.1 j * t.2) * c
  ring

end Design

namespace NormalEquations

/-- The equations with a factor on both sides. -/
def rescaled (c : K) (e : NormalEquations K p) : NormalEquations K p where
  matrix := Vec.map (Vec.map (· * c)) e.matrix
  side := e.side.map (· * c)

theorem ofSamples_rescaled (c : K) (samples : List (Sample K p)) :
    ofSamples (samples.map (Sample.rescaled c)) = (ofSamples samples).rescaled c := by
  rw [ofSamples, ofSamples, rescaled, ← Design.gram_map_mul, ← Design.moment_map_mul]
  simp only [List.map_map]
  refine congrArg₂ mk rfl (congrArg Design.moment (List.map_congr_left fun s _ => ?_))
  exact congrArg (s.row, ·) (mul_right_comm s.weight c s.y)

theorem distance_rescaled (c : K) (e : NormalEquations K p) (v : Fin p → K) :
    (e.rescaled c).matrix.distance (e.rescaled c).side v =
      e.matrix.distance e.side v * c ^ 2 := by
  rw [Mat.distance, Mat.distance, Finset.sum_mul]
  refine Finset.sum_congr rfl fun i _ => ?_
  have row : (e.rescaled c).matrix.mulVec v i = e.matrix.mulVec v i * c :=
    e.matrix.sum_map_mul c v i
  rw [row, rescaled, Vec.map_apply, ← sub_mul, mul_pow]

variable [IsStrictOrderedRing K] [LeastSquares K] [LeastSquares.Lawful K]

/-- **A factor on both sides makes no difference to the solution of least norm**: all distances are
multiplied by the square of the factor. -/
theorem solution_rescaled {c : K} (nonzero : c ≠ 0) (e : NormalEquations K p) :
    (e.rescaled c).solution = e.solution := by
  have positive : 0 < c ^ 2 := sq_pos_of_ne_zero nonzero
  -- What is closest and shortest for one system is so for the other one, and there is only one.
  have least : IsLeastNorm (e.matrix.distance e.side) ((e.rescaled c).solution ·) := by
    refine (e.rescaled c).isLeastNorm_solution.congr fun x => forall_congr' fun y => ?_
    rw [distance_rescaled, distance_rescaled, mul_le_mul_iff_left₀ positive]
  ext i
  exact congrFun (Mat.eq_of_isLeastNorm least e.isLeastNorm_solution) i

end NormalEquations

/-- **Balances and Jacobians have the unit of the weights.** -/
theorem Family.system_rescaled [Transcendental K] (f : Family K) (c : K)
    (samples : List (Sample K p)) (beta : Vec K p) :
    f.system (samples.map (Sample.rescaled c)) beta =
      (Scaling.mk c).apply (f.system samples beta) := by
  rw [system, system, Scaling.apply, ← Design.moment_map_mul, ← Design.gram_map_mul]
  simp only [List.map_map]
  refine congrArg₂ System.mk (congrArg Design.moment (List.map_congr_left fun s _ => ?_))
    (congrArg Design.gram (List.map_congr_left fun s _ => ?_))
  · exact congrArg (s.row, ·) (mul_right_comm s.weight c _)
  · exact congrArg (s.row, ·) (mul_right_comm s.weight c _)

namespace GeneralizedLinear

open Newton

variable {σ : Type} [Transcendental K] {g : GeneralizedLinear K} {f : Family K} {config : Config K}
  {store store' : Store K} {observer : Option (Observer σ K)} {o : Observation K}

theorem ridgeSystem_rescaled (c : K) (log : List (Observation K)) {n : Nat} (beta : Vec K n) :
    g.ridgeSystem f (config.rescaled c) (log.map (Observation.rescaled c)) beta =
      (Scaling.mk c).apply (g.ridgeSystem f config log beta) := by
  rw [ridgeSystem, ridgeSystem, ← System.regularize_apply, ← f.system_rescaled, List.map_map,
    List.map_map]
  rfl

variable [IsStrictOrderedRing K] [LeastSquares K] [LeastSquares.Lawful K]

theorem start_rescaled {c : K} (nonzero : c ≠ 0) (p : Nat) (log : List (Observation K)) :
    g.start f p (log.map (Observation.rescaled c)) = g.start f p log := by
  have equations : normalEquations f p (log.map (Observation.rescaled c)) =
      (normalEquations f p log).rescaled c := by
    rw [normalEquations, normalEquations, ← NormalEquations.ofSamples_rescaled, List.map_map,
      List.map_map]
    rfl
  rw [start, start, equations, NormalEquations.solution_rescaled nonzero]

/-- **Weights have no absolute unit.** A fit has a result unless something keeps it from its
iteration. If all weights, the ridge and the thresholds for balances and Jacobians are multiplied by
a positive number, it has the same result, except that the total of the balance is multiplied by it,
too. -/
theorem solve_rescaled (family : g.family = some f) {c : K} (positive : 0 < c)
    (accepted : config.accepted = true) (passive : ∀ o ∈ observer, o.Passive)
    (member : o ∈ store.log) (log : store'.log = store.log.map (Observation.rescaled c)) (u : σ) :
    ∃ r : FitResult (List K) K,
      (Run.start u (Fitter.solve ⟨g.model.lift, config, store⟩ observer)).1 =
        (g.prepare config o.x.length).map (fun _ => r) ∧
      (Run.start u (Fitter.solve ⟨g.model.lift, config.rescaled c, store'⟩ observer)).1 =
        (g.prepare config o.x.length).map (fun _ => r.rescaled c) := by
  have member' : o.rescaled c ∈ store'.log := by
    rw [log]
    exact List.mem_map_of_mem member
  have system : g.ridgeSystem f (config.rescaled c) store'.log =
      fun beta : Vec K (g.dim o.x.length) =>
        (Scaling.mk c).apply (g.ridgeSystem f config store.log beta) := by
    rw [log]
    exact funext (ridgeSystem_rescaled c store.log)
  have start : g.start f o.x.length store'.log = g.start f o.x.length store.log := by
    rw [log, start_rescaled positive.ne']
  have result : firstStop (config.rescaled c) (g.ridgeSystem f (config.rescaled c) store'.log)
      (g.start f o.x.length store'.log) =
        (firstStop config (g.ridgeSystem f config store.log)
          (g.start f o.x.length store.log)).rescaled c := by
    rw [system, start, firstStop_rescaled positive]
  refine ⟨_, solve_eq_firstStop family accepted passive member u, ?_⟩
  refine (solve_eq_firstStop family (Config.accepted_rescaled positive.le accepted) passive member'
    u).trans ?_
  -- What can keep a fit from its iteration does not depend on weights.
  change (g.prepare config o.x.length).map (fun _ => (firstStop (config.rescaled c)
    (g.ridgeSystem f (config.rescaled c) store'.log)
      (g.start f o.x.length store'.log)).map Vec.toList) = _
  rw [result]
  rfl

omit [LinearOrder K] [IsStrictOrderedRing K] [Transcendental K] [LeastSquares K]
  [LeastSquares.Lawful K] in
/-- A line with an intercept is fitted to two observations with a ridge, and one evaluation is
allowed. With three times the weights the total of the balance is `15` in place of `5`. -/
theorem solve_rescaled_line :
    let _ : Transcendental ℚ := ⟨id, id, id, id⟩
    let _ : LeastSquares ℚ := .exact ℚ
    let g : GeneralizedLinear ℚ := ⟨some .linear, true⟩
    let config : Config ℚ := ⟨1 / 2, 1, 1, 0, 1, .level 0, false⟩
    let store : Store ℚ := .ofLog 1 [⟨[1], 1, 1⟩, ⟨[-1], 3, 1⟩] (by simp)
    let config' : Config ℚ := ⟨3 / 2, 3, 3, 0, 1, .level 0, false⟩
    let store' : Store ℚ := .ofLog 1 [⟨[1], 1, 3⟩, ⟨[-1], 3, 3⟩] (by simp)
    let fit := (Run.start () (Fitter.solve ⟨g.model.lift, config, store⟩ (some Observer.idle))).1
    let fit' := (Run.start () (Fitter.solve ⟨g.model.lift, config', store'⟩ (some Observer.idle))).1
    fit = .ok ⟨.exhausted, [-2 / 3, 4 / 3], 1, 5, none⟩ ∧
      fit' = .ok ⟨.exhausted, [-2 / 3, 4 / 3], 1, 15, none⟩ := by
  intro _ _ g config store config' store' fit fit'
  have := LeastSquares.lawful_exact (K := ℚ)
  let o : Observation ℚ := ⟨[1], 1, 1⟩
  have accepted : config.accepted = true := by decide +kernel
  have member : o ∈ store.log := List.mem_cons_self
  have prepared : g.prepare config 1 = .ok () := prepare_of_room config (room_of_le (by decide))
  have fitted : fit = .ok ⟨.exhausted, [-2 / 3, 4 / 3], 1, 5, none⟩ := by
    let samples := store.log.map fun o => Design.sample 1 false (Family.linear.linked o)
    let e := NormalEquations.ofSamples samples
    have weights : ∀ s ∈ samples, 0 ≤ s.weight := by decide +kernel
    have least : IsLeastNorm (Design.squares samples) (e.solution ·) :=
      Design.isLeastNorm_squares weights e.isLeastNorm_solution
    have equation : e.matrix 0 0 * e.solution 0 = e.side 0 :=
      (Fin.sum_univ_one _).symm.trans ((Design.forall_squares_le_iff weights).1 least.least 0)
    have matrix : e.matrix 0 0 = 2 := by decide +kernel
    have side : e.side 0 = -2 := by decide +kernel
    have coefficient : e.solution = .ofList [-1] := by
      rw [matrix, side] at equation
      ext i
      obtain rfl : i = 0 := Subsingleton.elim _ _
      change e.solution 0 = -1
      linarith
    have start : g.start .linear 1 store.log = .ofList [-1, 0] := by
      change Vec.ofListPadded 2 e.solution.toList = _
      rw [coefficient]
      decide +kernel
    refine (solve_eq_firstStop (g := g) rfl accepted Observer.passive_idle member ()).trans ?_
    change (g.prepare config 1).map (fun _ => (firstStop config
      (g.ridgeSystem .linear config store.log) (g.start .linear 1 store.log)).map Vec.toList) = _
    rw [prepared, start]
    decide +kernel
  have parameters : config' = config.rescaled 3 := by decide +kernel
  have log : store'.log = store.log.map (Observation.rescaled 3) := by decide +kernel
  obtain ⟨r, alone, together⟩ :=
    solve_rescaled (g := g) rfl three_pos accepted Observer.passive_idle member log ()
  change _ = (g.prepare config 1).map _ at alone together
  rw [prepared] at alone together
  have result : r = ⟨.exhausted, [-2 / 3, 4 / 3], 1, 5, none⟩ :=
    Except.ok.inj (alone.symm.trans fitted)
  refine ⟨fitted, ?_⟩
  change (Run.start () (Fitter.solve ⟨_, config', store'⟩ _)).1 = _
  rw [parameters, together, result]
  decide +kernel

end GeneralizedLinear

end BalanceFit
