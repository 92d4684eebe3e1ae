import Mathlib.Analysis.SpecialFunctions.Sqrt
import BalanceFit.Proofs.Model.Monotone
import BalanceFit.Proofs.Model.Ridge

/-!
# A stronger ridge shrinks the coefficients

Where the balance with a ridge is zero, the balance without one is a negative multiple of the
coefficients. The balance without a ridge does not decrease along any direction. So of the
coefficients that solve the equations for two ridges, those for the stronger ridge are shorter,
whatever the family and the data: there need not be a formula for either of them.

A linear model reaches such coefficients with its first step, so of its fits, too, the one with the
stronger ridge is shorter.

## Main definitions

* `Vec.norm` : the Euclidean norm
* `Vec.Shrinks` : a vector is shorter than another one, unless that one is zero
* `GeneralizedLinear.IsRidgeSolution` : the balance with a ridge is zero
* `GeneralizedLinear.FirstStep` : the step that an iteration takes from its start

## Main statements

* `Family.sum_sq_add_sum_sq_le` : solutions for two ridges, and their distance
* `GeneralizedLinear.shrinks_of_isRidgeSolution` : the one for the stronger ridge is shorter
* `GeneralizedLinear.isRidgeSolution_of_firstStep`, `GeneralizedLinear.beta_of_firstStep` : the
  first step of a linear model leads to a solution, and the fit ends there
-/

namespace BalanceFit

open Matrix Newton

namespace Vec

variable {n m : Nat}

/-- The Euclidean norm. -/
noncomputable def norm (v : Vec ℝ n) : ℝ := √(∑ i, v i ^ 2)

theorem norm_sq (v : Vec ℝ n) : v.norm ^ 2 = ∑ i, v i ^ 2 :=
  Real.sq_sqrt (Finset.sum_nonneg fun i _ => sq_nonneg (v i))

/-- The second vector is shorter than the first one, unless the first one is zero. -/
structure Shrinks (b : Vec ℝ n) (b' : Vec ℝ m) : Prop where
  le : b'.norm ≤ b.norm
  lt : b ≠ .replicate n 0 → b'.norm < b.norm

end Vec

namespace Family

variable {n : Nat} {f : Family ℝ} {samples : List (Sample ℝ n)} {epsilon epsilon' : ℝ}
  {b b' : Vec ℝ n}

/-- Without the ridge, the balance where that with the ridge is zero. -/
theorem balance_of_root (root : ∀ j, ((f.system samples b).regularize epsilon b).balance j = 0)
    (j : Fin n) : (f.system samples b).balance j = -(2 * epsilon * b j) := by
  have zero := root j
  rw [System.regularize_balance_apply, Nat.cast_ofNat] at zero
  linarith

/-- **Solutions for two ridges.** The squares of the shorter one and of the difference add up to no
more than that of the longer one: the balance would otherwise decrease from one to the other. -/
theorem sum_sq_add_sum_sq_le (weights : ∀ s ∈ samples, 0 ≤ s.weight) (nonneg : 0 ≤ epsilon)
    (less : epsilon < epsilon')
    (root : ∀ j, ((f.system samples b).regularize epsilon b).balance j = 0)
    (root' : ∀ j, ((f.system samples b').regularize epsilon' b').balance j = 0) :
    ∑ j, b' j ^ 2 + ∑ j, (b j - b' j) ^ 2 ≤ ∑ j, b j ^ 2 := by
  have increasing := f.sum_sub_mul_nonneg weights b b'
  let inner := ∑ j, b j * (b j - b' j)
  let distance := ∑ j, (b j - b' j) ^ 2
  have balances :
      ∑ j, ((f.system samples b).balance j - (f.system samples b').balance j) * (b j - b' j) =
        2 * ((epsilon' - epsilon) * inner - epsilon' * distance) := by
    simp only [inner, distance, Finset.mul_sum, ← Finset.sum_sub_distrib]
    refine Finset.sum_congr rfl fun j _ => ?_
    rw [balance_of_root root, balance_of_root root']
    ring
  have nearer : distance ≤ inner := by
    have positive : 0 < epsilon' - epsilon := sub_pos.2 less
    have distance_nonneg : 0 ≤ distance := Finset.sum_nonneg fun j _ => sq_nonneg _
    rw [balances] at increasing
    refine le_of_mul_le_mul_left ?_ positive
    calc
      (epsilon' - epsilon) * distance ≤ epsilon' * distance :=
        mul_le_mul_of_nonneg_right (sub_le_self epsilon' nonneg) distance_nonneg
      _ ≤ (epsilon' - epsilon) * inner := by linarith
  have squares : ∑ j, b' j ^ 2 = ∑ j, b j ^ 2 - 2 * inner + distance := by
    simp only [inner, distance, Finset.mul_sum, ← Finset.sum_sub_distrib, ← Finset.sum_add_distrib]
    exact Finset.sum_congr rfl fun j _ => by ring
  change _ + distance ≤ _
  linarith

/-- Only zero solves the equations for two ridges. -/
theorem eq_zero_of_roots (less : epsilon < epsilon')
    (root : ∀ j, ((f.system samples b).regularize epsilon b).balance j = 0)
    (root' : ∀ j, ((f.system samples b).regularize epsilon' b).balance j = 0) :
    b = .replicate n 0 := by
  ext j
  have both := (balance_of_root root j).symm.trans (balance_of_root root' j)
  have product : (epsilon' - epsilon) * b j = 0 := by linarith
  rw [Vec.replicate_apply]
  exact (mul_eq_zero.1 product).resolve_left (sub_pos.2 less).ne'

end Family

namespace GeneralizedLinear

variable {g : GeneralizedLinear ℝ} {f : Family ℝ} {store : Store ℝ} {n m : Nat}

/-- At these coefficients the balance with a ridge is zero. -/
def IsRidgeSolution (g : GeneralizedLinear ℝ) (store : Store ℝ) (epsilon : ℝ) (b : Vec ℝ n) :
    Prop :=
  ∃ s, g.evaluate n store (.ofVec b) = .ok s ∧ ∀ j, (s.regularize epsilon b).balance j = 0

/-- An iteration from the start takes a step, and the step leads to `b`. -/
def FirstStep (g : GeneralizedLinear ℝ) (store : Store ℝ) (config : Config ℝ) (start b : Vec ℝ n) :
    Prop :=
  ∃ s delta, g.evaluate n store (.ofVec start) = .ok s ∧
    assess config (s.regularize config.epsilon start) = .ok (.step delta) ∧
      b = Vec.zipWith (· - ·) start delta

/-- The coefficients for the stronger ridge are shorter. If they were as long as the others they
would be equal to them, and so zero. -/
theorem shrinks_of_isRidgeSolution (family : g.family = some f)
    (weights : ∀ o ∈ store.log, 0 ≤ o.weight) {epsilon epsilon' : ℝ} (nonneg : 0 ≤ epsilon)
    (less : epsilon < epsilon') {b : Vec ℝ n} {b' : Vec ℝ m}
    (solution : g.IsRidgeSolution store epsilon b)
    (solution' : g.IsRidgeSolution store epsilon' b') : b.Shrinks b' := by
  obtain ⟨s, evaluated, root⟩ := solution
  obtain ⟨s', evaluated', root'⟩ := solution'
  obtain ⟨⟨p, columns, size⟩, rfl⟩ := (evaluate_eq_ok_iff family).1 evaluated
  obtain ⟨⟨p', columns', size'⟩, rfl⟩ := (evaluate_eq_ok_iff family).1 evaluated'
  obtain rfl : p = p' := Option.some.inj (columns.symm.trans columns')
  obtain rfl : n = m := size.trans size'.symm
  have sampled : ∀ s ∈ store.log.map (Design.sample n g.intercept), 0 ≤ s.weight :=
    List.forall_mem_map.2 weights
  have bound := Family.sum_sq_add_sum_sq_le sampled nonneg less root root'
  rw [← Vec.norm_sq, ← Vec.norm_sq] at bound
  have distance_nonneg : 0 ≤ ∑ j, (b j - b' j) ^ 2 := Finset.sum_nonneg fun j _ => sq_nonneg _
  have le : b'.norm ≤ b.norm :=
    le_of_sq_le_sq (by linarith) (Real.sqrt_nonneg _)
  refine ⟨le, fun nonzero => lt_of_le_of_ne le fun same => nonzero ?_⟩
  rw [same] at bound
  have equal : b = b' := by
    have nothing : ∑ j, (b j - b' j) ^ 2 = 0 := le_antisymm (by linarith) distance_nonneg
    have squares := (Finset.sum_eq_zero_iff_of_nonneg fun j _ => sq_nonneg (b j - b' j)).1 nothing
    ext j
    exact sub_eq_zero.1 ((pow_eq_zero_iff two_ne_zero).1 (squares j (Finset.mem_univ j)))
  subst equal
  exact Family.eq_zero_of_roots less root root'

section Linear

variable {config : Config ℝ} {start b : Vec ℝ n} (family : g.family = some .linear)

include family

/-- The step of a linear model leads to a solution: its balance is affine. -/
theorem isRidgeSolution_of_firstStep (step : g.FirstStep store config start b) :
    g.IsRidgeSolution store config.epsilon b := by
  obtain ⟨s, delta, evaluated, assessed, rfl⟩ := step
  obtain ⟨fits, rfl⟩ := (evaluate_eq_ok_iff family).1 evaluated
  have affine := Family.isAffine_linear store n g.intercept config.epsilon
  obtain ⟨-, -, -, solves⟩ := solves_of_step assessed
  refine ⟨_, (evaluate_eq_ok_iff family).2 ⟨fits, rfl⟩, fun j => ?_⟩
  refine (affine.balance _ j).trans ?_
  have equation := solves j
  rw [← Mat.mulVec_toMatrix, affine.jacobian, affine.balance] at equation
  have difference : (fun i => Vec.zipWith (· - ·) start delta i) = (start ·) - (delta ·) :=
    funext (Vec.zipWith_apply _ _ _)
  rw [difference, mulVec_sub, Pi.sub_apply]
  linarith

/-- **The fit of a linear model that takes a step ends where the step leads.** -/
theorem beta_of_firstStep (accepted : config.accepted = true)
    (step : g.FirstStep store config start b) {σ : Type} {observer : Option (Observer σ ℝ)}
    (passive : ∀ o ∈ observer, o.Passive) (u : σ) :
    ∃ r, (Run.start u (newton g.model.lift store config observer start)).1 =
        (config.verbosity.atLeast 1).map (fun _ => r) ∧ r.beta = b := by
  obtain ⟨s, delta, evaluated, assessed, rfl⟩ := step
  obtain ⟨fits, rfl⟩ := (evaluate_eq_ok_iff family).1 evaluated
  have affine := Family.isAffine_linear store n g.intercept config.epsilon
  obtain ⟨unbalanced, large, regular, -⟩ := solves_of_step assessed
  rw [affine.absTotal_jacobian start] at large
  rw [Mat.isSingular_iff_det_eq_zero, affine.jacobian] at regular
  obtain ⟨b, root⟩ := IsAffine.exists_root regular (store.ridgeSide n g.intercept)
  refine ⟨_, start_newton_of_finite accepted (computes family fits) passive
    start.isFinite_eq_true u, ?_⟩
  rw [affine.beta_firstStop root accepted regular large start unbalanced]
  -- There is one step from the start, and it leads to the root.
  have only := affine.assess_eq root accepted regular large start unbalanced
  rw [assessed] at only
  obtain rfl : delta = Vec.zipWith (· - ·) start b := by
    cases only
    rfl
  ext i
  simp only [Vec.zipWith_apply, sub_sub_cancel]

/-- Out of balance a step is taken, if the ridge matrix is regular and large enough to be scaled. -/
theorem exists_firstStep (accepted : config.accepted = true) {p : Nat}
    (columns : store.ledger.columns? = some p) (size : n = g.dim p)
    (regular : (store.ridgeMatrix n g.intercept config.epsilon).det ≠ 0)
    (large : config.jacobianTol < ∑ i, ∑ j, |store.ridgeMatrix n g.intercept config.epsilon i j|)
    (unbalanced : config.balanceTol <
      ∑ i, |(store.ridgeMatrix n g.intercept config.epsilon *ᵥ (start ·)) i -
        store.ridgeSide n g.intercept i|) :
    ∃ b, g.FirstStep store config start b := by
  have affine := Family.isAffine_linear store n g.intercept config.epsilon
  obtain ⟨b, root⟩ := IsAffine.exists_root regular (store.ridgeSide n g.intercept)
  rw [← affine.absTotal_balance] at unbalanced
  exact ⟨_, _, _, (evaluate_eq_ok_iff family).2 ⟨⟨p, columns, size⟩, rfl⟩,
    affine.assess_eq root accepted regular large start unbalanced, rfl⟩

end Linear

/-- **A stronger ridge shrinks the coefficients.** For every family, with or without an intercept,
and every store without negative weights: if the balance is zero at `b` with one ridge and at `b'`
with a stronger one, then `b'` is shorter than `b`, unless `b` is zero. The first step of a linear
model, from any start, leads to such coefficients, and they are what the fit returns. -/
theorem shrinks_of_ridge_lt (family : g.family = some f)
    (weights : ∀ o ∈ store.log, 0 ≤ o.weight) {epsilon epsilon' : ℝ} (nonneg : 0 ≤ epsilon)
    (less : epsilon < epsilon') :
    (∀ {n m : Nat} {b : Vec ℝ n} {b' : Vec ℝ m}, g.IsRidgeSolution store epsilon b →
      g.IsRidgeSolution store epsilon' b' → b.Shrinks b') ∧
    (f = .linear → ∀ {config config' : Config ℝ}, config.accepted = true →
      config'.accepted = true → config.epsilon = epsilon → config'.epsilon = epsilon' →
      ∀ {n : Nat} {start start' b b' : Vec ℝ n}, g.FirstStep store config start b →
        g.FirstStep store config' start' b' →
        g.IsRidgeSolution store epsilon b ∧ g.IsRidgeSolution store epsilon' b' ∧
          ∀ {σ : Type} {observer observer' : Option (Observer σ ℝ)},
            (∀ o ∈ observer, o.Passive) → (∀ o ∈ observer', o.Passive) → ∀ u u' : σ, ∃ r r',
              (Run.start u (newton g.model.lift store config observer start)).1 =
                (config.verbosity.atLeast 1).map (fun _ => r) ∧
              (Run.start u' (newton g.model.lift store config' observer' start')).1 =
                (config'.verbosity.atLeast 1).map (fun _ => r') ∧
              r.beta = b ∧ r'.beta = b' ∧ r.beta.Shrinks r'.beta) := by
  constructor
  · exact shrinks_of_isRidgeSolution family weights nonneg less
  · rintro rfl config config' accepted accepted' rfl rfl n start start' b b' step step'
    have solution := isRidgeSolution_of_firstStep family step
    have solution' := isRidgeSolution_of_firstStep family step'
    refine ⟨solution, solution', fun passive passive' u u' => ?_⟩
    obtain ⟨r, result, rfl⟩ := beta_of_firstStep family accepted step passive u
    obtain ⟨r', result', rfl⟩ := beta_of_firstStep family accepted' step' passive' u'
    exact ⟨r, r', result, result', rfl, rfl,
      shrinks_of_isRidgeSolution family weights nonneg less solution solution'⟩

/-- A response of one, without a ridge and with one of `1 / 2`: the fits are `1` and `1 / 2`. -/
theorem shrinks_of_ridge_lt_single :
    let g : GeneralizedLinear ℝ := ⟨some .linear, false⟩
    let store : Store ℝ := (Store.empty none).push ⟨[1], 1, 1⟩ (by decide) nofun
    let config (epsilon : ℝ) : Config ℝ := ⟨epsilon, 0, 0, 0, 1, .level 0, false⟩
    let fit (epsilon start : ℝ) :=
      (Run.start () (newton g.model.lift store (config epsilon) none (.replicate 1 start))).1
    ∃ r r' : FitResult (Vec ℝ 1) ℝ, fit 0 0 = .ok r ∧ fit (1 / 2) 3 = .ok r' ∧
      r.beta 0 = 1 ∧ r'.beta 0 = 1 / 2 ∧ r'.beta.norm < r.beta.norm := by
  intro g store config fit
  let o : Observation ℝ := ⟨[1], 1, 1⟩
  have weights : ∀ o ∈ store.log, 0 ≤ o.weight := by
    intro o' member
    rw [List.mem_singleton.1 (show o' ∈ [o] from member)]
    exact zero_le_one
  have accepted (epsilon : ℝ) (nonneg : 0 ≤ epsilon) : (config epsilon).accepted = true := by
    simp [config, Config.accepted, nonneg]
  have matrix (epsilon : ℝ) (i j : Fin 1) :
      store.ridgeMatrix 1 false epsilon i j = 1 + 2 * epsilon := by
    obtain rfl := Subsingleton.elim i j
    rw [Store.ridgeMatrix_apply, if_pos rfl]
    simp [store, Design.row]
  have side (i : Fin 1) : store.ridgeSide 1 false i = 1 := by
    rw [Store.ridgeSide_apply]
    simp [store, Design.row]
  have step (epsilon start : ℝ) (nonneg : 0 ≤ epsilon)
      (unbalanced : 0 < |(1 + 2 * epsilon) * start - 1|) :
      ∃ b, g.FirstStep store (config epsilon) (.replicate 1 start) b := by
    refine exists_firstStep (p := 1) rfl (accepted epsilon nonneg) rfl rfl ?_ ?_ ?_
    · rw [det_fin_one]
      change store.ridgeMatrix 1 false epsilon 0 0 ≠ 0
      rw [matrix]
      positivity
    · change 0 < ∑ i, ∑ j, |store.ridgeMatrix 1 false epsilon i j|
      rw [Fin.sum_univ_one, Fin.sum_univ_one, matrix]
      positivity
    · rw [Fin.sum_univ_one]
      change 0 < |(store.ridgeMatrix 1 false epsilon *ᵥ _) 0 - store.ridgeSide 1 false 0|
      rw [mulVec, dotProduct, Fin.sum_univ_one, matrix, side, Vec.replicate_apply]
      exact unbalanced
  have value (epsilon : ℝ) {b : Vec ℝ 1} (solution : g.IsRidgeSolution store epsilon b) :
      (1 + 2 * epsilon) * b 0 = 1 := by
    obtain ⟨s, evaluated, root⟩ := solution
    obtain ⟨-, rfl⟩ := (evaluate_eq_ok_iff (f := .linear) rfl).1 evaluated
    have zero := ((Family.isAffine_linear store 1 false epsilon).balance b 0).symm.trans (root 0)
    rw [mulVec, dotProduct, Fin.sum_univ_one, matrix, side] at zero
    exact sub_eq_zero.1 zero
  have half : (0 : ℝ) < 1 / 2 := one_half_pos
  obtain ⟨b, step_b⟩ := step 0 0 le_rfl (by norm_num)
  obtain ⟨b', step_b'⟩ := step (1 / 2) 3 half.le (by norm_num)
  obtain ⟨solution, solution', fits⟩ :=
    (shrinks_of_ridge_lt (g := g) rfl weights le_rfl half).2 rfl (accepted 0 le_rfl)
      (accepted _ half.le) rfl rfl step_b step_b'
  obtain ⟨r, r', result, result', rfl, rfl, shrinks⟩ :=
    fits (σ := Unit) Observer.passive_of_none Observer.passive_of_none () ()
  have one : r.beta 0 = 1 := by linarith [value 0 solution]
  refine ⟨r, r', result, result', one, by linarith [value _ solution'], shrinks.lt fun zero => ?_⟩
  rw [zero, Vec.replicate_apply] at one
  exact zero_ne_one one

end GeneralizedLinear

end BalanceFit
