import Mathlib.Algebra.BigOperators.Ring.List
import Mathlib.Logic.Relation
import Mathlib.Tactic.Ring
import BalanceFit.Proofs.Fitter.WarmStart
import BalanceFit.Proofs.Model.Family

/-!
# A fit depends on the weighted collection of observations alone

In exact arithmetic the order of the observations makes no difference to a fit. Neither does it
matter whether the weight of an observation is spread over several entries of the log, or whether
observations of weight zero are listed: balances, Jacobians and normal equations are sums in which
each observation counts for its weight, and these sums remain the same.

## Main definitions

* `weightedSum` : the sum of a function of predictor and response over a log
* `Regrouped` : one change to a log that leaves the weighted collection as it is
* `Store.SameCollection` : stores that such changes lead from one to the other

## Main statements

* `Regrouped.weightedSum_eq` : weighted sums remain the same
* `Design.moment_congr`, `Design.gram_congr` : so do the sums of rows and of outer products
* `GeneralizedLinear.solve_eq_of_sameCollection` : fits to stores of one collection agree
-/

namespace BalanceFit

variable {K σ : Type}

section Collections

variable [Field K] {l l' : List (Observation K)}

/-- The sum of a function of predictor and response over a log, in which each observation counts for
its weight. -/
def weightedSum (l : List (Observation K)) (h : List K → K → K) : K :=
  (l.map fun o => o.weight * h o.x o.y).sum

/-- One change to a log that leaves the weighted collection of its observations as it is. -/
inductive Regrouped : List (Observation K) → List (Observation K) → Prop
  /-- The observations are listed in another order. -/
  | permuted {l l' : List (Observation K)} (perm : l.Perm l') : Regrouped l l'
  /-- Two observations that differ in their weights alone become one. -/
  | merged (x : List K) (y w w' : K) (l : List (Observation K)) :
    Regrouped (⟨x, y, w⟩ :: ⟨x, y, w'⟩ :: l) (⟨x, y, w + w'⟩ :: l)
  /-- An observation of weight zero is left out. -/
  | dropped (x : List K) (y : K) (l : List (Observation K)) : Regrouped (⟨x, y, 0⟩ :: l) l

/-- Changes to the log, made forth or back, lead from one store to the other, and all stores on the
way have observations. -/
def Store.SameCollection : Store K → Store K → Prop :=
  Relation.EqvGen fun s t => s.log ≠ [] ∧ t.log ≠ [] ∧ Regrouped s.log t.log

/-- Weighted sums remain the same. -/
theorem Regrouped.weightedSum_eq (h : Regrouped l l') : weightedSum l = weightedSum l' := by
  funext term
  cases h with
  | permuted perm => exact (perm.map _).sum_eq
  | merged x y w w' l =>
    simp only [weightedSum, List.map_cons, List.sum_cons]
    rw [← add_assoc, ← add_mul]
  | dropped x y l =>
    simp only [weightedSum, List.map_cons, List.sum_cons]
    rw [zero_mul, zero_add]

/-- A change leaves an observation in its place, or one with the same predictor. Either way there is
a common length if there are observations on both sides. -/
theorem Regrouped.exists_length_eq (h : Regrouped l l') (left : l ≠ []) (right : l' ≠ []) :
    ∃ o ∈ l, ∃ o' ∈ l', o.x.length = o'.x.length := by
  cases h with
  | permuted perm =>
    obtain ⟨o, member⟩ := List.exists_mem_of_ne_nil l left
    exact ⟨o, member, o, perm.mem_iff.1 member, rfl⟩
  | merged x y w w' l =>
    exact ⟨_, List.mem_cons_self, _, List.mem_cons_self, rfl⟩
  | dropped x y l =>
    obtain ⟨o, member⟩ := List.exists_mem_of_ne_nil l' right
    exact ⟨o, List.mem_cons_of_mem _ member, o, member, rfl⟩

end Collections

variable [Field K] [LinearOrder K] {l l' : List (Observation K)} {p : Nat}

namespace Design

/-- Sums of rows with coefficients proportional to the weights depend on weighted sums alone. -/
theorem moment_congr (same : weightedSum l = weightedSum l') (row : List K → Vec K p)
    (h : List K → K → K) :
    moment (l.map fun o => (row o.x, o.weight * h o.x o.y)) =
      moment (l'.map fun o => (row o.x, o.weight * h o.x o.y)) := by
  ext j
  have entry (l : List (Observation K)) :
      moment (l.map fun o => (row o.x, o.weight * h o.x o.y)) j =
        weightedSum l fun x y => row x j * h x y := by
    simp only [moment_apply, total_eq_sum, List.map_map, weightedSum]
    refine congrArg List.sum (List.map_congr_left fun o _ => ?_)
    change row o.x j * (o.weight * h o.x o.y) = o.weight * (row o.x j * h o.x o.y)
    ring
  rw [entry, entry, same]

/-- Sums of outer products depend on weighted sums alone. -/
theorem gram_congr (same : weightedSum l = weightedSum l') (row : List K → Vec K p)
    (h : List K → K → K) :
    gram (l.map fun o => (row o.x, o.weight * h o.x o.y)) =
      gram (l'.map fun o => (row o.x, o.weight * h o.x o.y)) := by
  ext i j
  have entry (l : List (Observation K)) :
      gram (l.map fun o => (row o.x, o.weight * h o.x o.y)) i j =
        weightedSum l fun x y => row x i * (row x j * h x y) := by
    simp only [gram_apply, total_eq_sum, List.map_map, weightedSum]
    refine congrArg List.sum (List.map_congr_left fun o _ => ?_)
    change row o.x i * (row o.x j * (o.weight * h o.x o.y)) =
      o.weight * (row o.x i * (row o.x j * h o.x o.y))
    ring
  rw [entry, entry, same]

end Design

variable [Transcendental K]

/-- The system of a family depends on weighted sums alone. -/
theorem Family.system_congr (f : Family K) (same : weightedSum l = weightedSum l')
    (intercept : Bool) (beta : Vec K p) :
    f.system (l.map (Design.sample p intercept)) beta =
      f.system (l'.map (Design.sample p intercept)) beta := by
  let row : List K → Vec K p := Design.row p intercept
  have balances := Design.moment_congr same row fun x y => f.mean ((row x).dot beta) - y
  have jacobians := Design.gram_congr same row fun x _ => f.variance (f.mean ((row x).dot beta))
  simp only [Family.system, List.map_map]
  exact congrArg₂ System.mk balances jacobians

namespace GeneralizedLinear

variable {g : GeneralizedLinear K} {f : Family K} {config : Config K} {s t : Store K}
  {observer : Option (Observer σ K)}

/-- So do the normal equations for the linked observations. -/
theorem normalEquations_congr (f : Family K) (same : weightedSum l = weightedSum l') (p : Nat) :
    normalEquations f p l = normalEquations f p l' := by
  let row : List K → Vec K p := Design.row p false
  have matrices := Design.gram_congr same row fun _ _ => 1
  have sides := Design.moment_congr same row fun _ y => f.link y
  simp only [mul_one] at matrices
  simp only [normalEquations, NormalEquations.ofSamples, List.map_map]
  exact congrArg₂ NormalEquations.mk matrices sides

variable [LeastSquares K]

/-- Fits to two stores agree if one change leads from one log to the other. -/
theorem solve_eq_of_regrouped (family : g.family = some f) (left : s.log ≠ []) (right : t.log ≠ [])
    (h : Regrouped s.log t.log) (u : σ) :
    (Run.start u (Fitter.solve ⟨g.model.lift, config, s⟩ observer)).1 =
      (Run.start u (Fitter.solve ⟨g.model.lift, config, t⟩ observer)).1 := by
  obtain ⟨o, member, o', member', lengths⟩ := h.exists_length_eq left right
  have sums := h.weightedSum_eq
  have starts : g.start f o.x.length s.log = g.start f o.x.length t.log := by
    rw [start, start, normalEquations_congr f sums]
  -- Over either store the model computes the same function.
  have computes : (g.model.lift : Model (Act σ) K).Computes s fun beta : Vec K (g.dim o.x.length) =>
      f.system (s.log.map (Design.sample _ g.intercept)) beta :=
    computes family ⟨_, Store.columns?_of_mem member, rfl⟩
  have computes' : (g.model.lift : Model (Act σ) K).Computes t
      fun beta : Vec K (g.dim o.x.length) =>
        f.system (s.log.map (Design.sample _ g.intercept)) beta := by
    simp only [f.system_congr sums]
    exact GeneralizedLinear.computes family ⟨_, Store.columns?_of_mem member', by rw [lengths]⟩
  rw [start_solve family member, start_solve family member', ← lengths, starts,
    Newton.newton_congr computes computes']

/-- **A fit depends on the weighted collection of observations alone.** Fits to two stores of one
collection give the same result, whatever the functions behind the model and the procedure for the
normal equations are, and whatever looks on: the induction is on the changes that lead from one
store to the other. -/
theorem solve_eq_of_sameCollection (family : g.family = some f) (same : s.SameCollection t)
    (u : σ) :
    (Run.start u (Fitter.solve ⟨g.model.lift, config, s⟩ observer)).1 =
      (Run.start u (Fitter.solve ⟨g.model.lift, config, t⟩ observer)).1 := by
  induction same with
  | rel s t change =>
    obtain ⟨left, right, regrouped⟩ := change
    exact solve_eq_of_regrouped family left right regrouped u
  | refl s => rfl
  | symm s t _ ih => exact ih.symm
  | trans s t r _ _ first second => exact first.trans second

/-- A Poisson regression with an intercept gives the same result whether an observation counts three
times, or is listed in two parts, behind the other observation and one of weight zero. -/
theorem solve_eq_of_sameCollection_parts :
    let _ : LeastSquares ℝ := .regular
    let g : GeneralizedLinear ℝ := ⟨some .poisson, true⟩
    let config : Config ℝ := ⟨1, 1 / 100, 0, 0, 5, .level 0, true⟩
    let whole : Store ℝ := .ofLog 1 [⟨[1], 2, 1 + 2⟩, ⟨[4], 1, 1⟩] (by simp)
    let parts : Store ℝ := .ofLog 1 [⟨[7], 5, 0⟩, ⟨[4], 1, 1⟩, ⟨[1], 2, 1⟩, ⟨[1], 2, 2⟩] (by simp)
    whole.SameCollection parts ∧
      (Run.start () (Fitter.solve ⟨g.model.lift, config, whole⟩ none)).1 =
        (Run.start () (Fitter.solve ⟨g.model.lift, config, parts⟩ none)).1 := by
  intro _ g config whole parts
  let split : Store ℝ := .ofLog 1 [⟨[1], 2, 1⟩, ⟨[1], 2, 2⟩, ⟨[4], 1, 1⟩] (by simp)
  let light : Store ℝ := .ofLog 1 [⟨[7], 5, 0⟩, ⟨[1], 2, 1⟩, ⟨[1], 2, 2⟩, ⟨[4], 1, 1⟩] (by simp)
  have same : whole.SameCollection parts := by
    have splitting : split.SameCollection whole :=
      .rel _ _ ⟨nofun, nofun, .merged [1] 2 1 2 [⟨[4], 1, 1⟩]⟩
    have adding : light.SameCollection split :=
      .rel _ _ ⟨nofun, nofun, .dropped [7] 5 split.log⟩
    have reordering : light.SameCollection parts :=
      .rel _ _ ⟨nofun, nofun, .permuted (.cons _ (List.perm_append_singleton _ [_, _]))⟩
    exact .trans _ _ _ (.symm _ _ (.trans _ _ _ adding splitting)) reordering
  exact ⟨same, solve_eq_of_sameCollection rfl same ()⟩

end GeneralizedLinear

end BalanceFit
