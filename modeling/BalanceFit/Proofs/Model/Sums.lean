import Mathlib.Algebra.BigOperators.Group.List.Basic
import Mathlib.Tactic.FinCases
import Mathlib.Tactic.NormNum
import Mathlib.Tactic.Ring
import BalanceFit.Proofs.Model.Evaluation
import BalanceFit.Proofs.Model.Family

/-!
# Sums over observations, one at a time

A generalized linear model works on stacked arrays: it pads the rows of the design, multiplies them
with the coefficients, and takes the sums of the rows and of their outer products. What it leaves in
the buffers is defined without arrays, observation by observation. The order of the observations
does not enter the definition, and the observations of two stores contribute separately.

## Main definitions

* `Observation.covariate` : the covariates of an observation, a constant one behind the predictor
* `Family.observationwise` : balance and Jacobian, summed over observations
* `System.plus` : the sum of two systems, entry by entry

## Main statements

* `Family.system_eq_observationwise` : the sums over samples are those over observations
* `GeneralizedLinear.evaluate_eq_observationwise` : so are the contents of the buffers
-/

namespace BalanceFit

variable {K σ : Type} {n : Nat}

section Definitions

variable [Field K] [LinearOrder K]

/-- The covariate at a position: an entry of the predictor, or the constant one behind them. -/
def Observation.covariate (o : Observation K) (i : Nat) : K := o.x.getD i 1

/-- The sum of two systems, entry by entry. -/
def System.plus (s t : System K n) : System K n where
  balance := .ofFn fun i => s.balance i + t.balance i
  jacobian := .ofFn fun i j => s.jacobian i j + t.jacobian i j

variable [Transcendental K]

/-- The mean for an observation. -/
def Family.fitted (f : Family K) (beta : Vec K n) (o : Observation K) : K :=
  f.mean (∑ i : Fin n, o.covariate i * beta i)

/-- Balance and Jacobian as sums over observations. -/
def Family.observationwise (f : Family K) (log : List (Observation K)) (beta : Vec K n) :
    System K n where
  balance := .ofFn fun i =>
    (log.map fun o => o.weight * o.covariate i * (f.fitted beta o - o.y)).sum
  jacobian := .ofFn fun i j =>
    (log.map fun o =>
      o.weight * f.variance (f.fitted beta o) * (o.covariate i * o.covariate j)).sum

end Definitions

variable [Field K] [LinearOrder K]

/-- The row of an observation holds its covariates. -/
theorem Design.row_apply_eq_covariate {intercept : Bool} {o : Observation K}
    (length : n = o.x.length + intercept.toNat) (i : Fin n) :
    Design.row n intercept o.x i = o.covariate i := by
  rw [Design.row, Vec.ofListPadded_apply, Observation.covariate]
  cases intercept with
  | false =>
    have inside : i < o.x.length := by simpa [length] using i.isLt
    simp [inside]
  | true =>
    -- Behind the entries of the predictor there is the trailing one, and no padding.
    have inside : i < o.x.length + 1 := by simpa [length] using i.isLt
    rw [if_pos rfl, List.getD_eq_getElem?_getD, List.getElem?_append]
    by_cases entry : i < o.x.length
    · simp [entry]
    · have last : (i : Nat) = o.x.length := by omega
      simp [last]

namespace Family

variable [Transcendental K] (f : Family K)

/-- Over samples with rows of the right length the sums are those over the observations. -/
theorem system_eq_observationwise {intercept : Bool} {log : List (Observation K)}
    (lengths : ∀ o ∈ log, n = o.x.length + intercept.toNat) (beta : Vec K n) :
    f.system (log.map (Design.sample n intercept)) beta = f.observationwise log beta := by
  have mean {o : Observation K} (member : o ∈ log) :
      f.meanAt beta (Design.sample n intercept o) = f.fitted beta o := by
    rw [meanAt, fitted, Vec.dot_eq_sum]
    exact congrArg f.mean (Finset.sum_congr rfl fun i _ =>
      congrArg (· * beta i) (Design.row_apply_eq_covariate (lengths o member) i))
  rw [system, observationwise, System.mk.injEq]
  constructor
  · ext i
    rw [Design.moment_apply, Design.total_eq_sum, Vec.ofFn_apply, List.map_map, List.map_map]
    refine congrArg List.sum (List.map_congr_left fun o member => ?_)
    change Design.row n intercept o.x i * (o.weight * (f.meanAt beta _ - o.y)) = _
    rw [mean member, Design.row_apply_eq_covariate (lengths o member)]
    ring
  · ext i j
    rw [Design.gram_apply, Design.total_eq_sum, Mat.ofFn_apply, List.map_map, List.map_map]
    refine congrArg List.sum (List.map_congr_left fun o member => ?_)
    change Design.row n intercept o.x i * (Design.row n intercept o.x j *
      (o.weight * f.variance (f.meanAt beta _))) = _
    rw [mean member, Design.row_apply_eq_covariate (lengths o member),
      Design.row_apply_eq_covariate (lengths o member)]
    ring

/-- The order of the observations makes no difference. -/
theorem observationwise_perm {log log' : List (Observation K)} (perm : log.Perm log')
    (beta : Vec K n) : f.observationwise log beta = f.observationwise log' beta := by
  have sums (h : Observation K → K) : (log.map h).sum = (log'.map h).sum :=
    (perm.map h).sum_eq
  simp only [observationwise, sums]

/-- The observations of two logs contribute separately. -/
theorem observationwise_append (log log' : List (Observation K)) (beta : Vec K n) :
    f.observationwise (log ++ log') beta =
      (f.observationwise log beta).plus (f.observationwise log' beta) := by
  simp only [observationwise, System.plus, List.map_append, List.sum_append, Vec.ofFn_apply,
    Mat.ofFn_apply]

end Family

namespace GeneralizedLinear

variable [Transcendental K] {g : GeneralizedLinear K} {f : Family K} {store : Store K}
  {o : Observation K}

theorem evaluate_lift_eq_observationwise (family : g.family = some f) (member : o ∈ store.log)
    (size : n = g.dim o.x.length) (beta : Vec K n) (buffers : System K n) :
    g.model.lift.evaluate store (.ofVec beta) buffers =
      (pure (f.observationwise store.log beta) : Act σ (System K n)) := by
  have lengths (o' : Observation K) (member' : o' ∈ store.log) :
      n = o'.x.length + g.intercept.toNat := by
    rw [size, dim, Store.length_eq_of_mem member member']
  rw [evaluate_lift_eq family ⟨_, Store.columns?_of_mem member, size⟩,
    f.system_eq_observationwise lengths]

/-- **The contents of the buffers are sums over observations.** Over a store with observations a
model writes, whatever the buffers held before, the balance and the Jacobian that are summed over
the observations in any order. So if the log of the store joins the logs of two stores with
observations, it writes the sum of what it writes for each of them. -/
theorem evaluate_eq_observationwise (family : g.family = some f) (member : o ∈ store.log)
    (beta : Vec K (g.dim o.x.length)) :
    (∀ log : List (Observation K), log.Perm store.log → ∀ buffers,
      g.model.lift.evaluate store (.ofVec beta) buffers =
        (pure (f.observationwise log beta) : Act σ (System K _))) ∧
    ∀ first second : Store K, first.log ≠ [] → second.log ≠ [] →
      store.log = first.log ++ second.log →
      ∃ s t : System K (g.dim o.x.length),
        (∀ buffers, g.model.lift.evaluate first (.ofVec beta) buffers =
          (pure s : Act σ (System K _))) ∧
        (∀ buffers, g.model.lift.evaluate second (.ofVec beta) buffers =
          (pure t : Act σ (System K _))) ∧
        ∀ buffers, g.model.lift.evaluate store (.ofVec beta) buffers =
          (pure (s.plus t) : Act σ (System K _)) := by
  constructor
  · intro log perm buffers
    rw [evaluate_lift_eq_observationwise family member rfl, f.observationwise_perm perm]
  · intro first second some_first some_second joined
    obtain ⟨o₁, member₁⟩ := List.exists_mem_of_ne_nil _ some_first
    obtain ⟨o₂, member₂⟩ := List.exists_mem_of_ne_nil _ some_second
    have length₁ : o.x.length = o₁.x.length :=
      Store.length_eq_of_mem member (joined ▸ List.mem_append_left _ member₁)
    have length₂ : o.x.length = o₂.x.length :=
      Store.length_eq_of_mem member (joined ▸ List.mem_append_right _ member₂)
    refine ⟨_, _, evaluate_lift_eq_observationwise family member₁ (by rw [length₁]) beta,
      evaluate_lift_eq_observationwise family member₂ (by rw [length₂]) beta, fun buffers => ?_⟩
    rw [evaluate_lift_eq_observationwise family member rfl, joined, f.observationwise_append]

/-- With zero coefficients the mean of logistic regression is one half. An observation of weight
three contributes minus three halves times its row to the balance, one of weight one and response
zero contributes one half times its row. -/
theorem evaluate_eq_observationwise_logistic :
    let g : GeneralizedLinear ℝ := ⟨some (.logistic Family.defaultClip), true⟩
    let first : Store ℝ := (Store.empty none).push ⟨[2], 1, 3⟩ (by decide) nofun
    let second : Store ℝ := (Store.empty none).push ⟨[4], 0, 1⟩ (by decide) nofun
    let both : Store ℝ := first.push ⟨[4], 0, 1⟩ (by decide) (by rintro w ⟨⟩; rfl)
    let evaluate (store : Store ℝ) (buffers : System ℝ 2) : Act Unit (System ℝ 2) :=
      g.model.lift.evaluate store (.ofVec (.replicate 2 0)) buffers
    (∀ buffers, evaluate both buffers =
      pure ⟨.ofFn ![-1, -1], .ofFn ![![7, 5 / 2], ![5 / 2, 1]]⟩) ∧
    ∃ s t, (∀ buffers, evaluate first buffers = pure s) ∧
      (∀ buffers, evaluate second buffers = pure t) ∧
      ∀ buffers, evaluate both buffers = pure (s.plus t) := by
  intro g first second both evaluate
  have member : (⟨[2], 1, 3⟩ : Observation ℝ) ∈ both.log := List.mem_cons_self
  obtain ⟨whole, parts⟩ := evaluate_eq_observationwise (σ := Unit) (g := g) rfl member
    (.replicate 2 0)
  have reversed : [⟨[4], 0, 1⟩, ⟨[2], 1, 3⟩].Perm both.log := List.Perm.swap _ _ _
  let f : Family ℝ := .logistic Family.defaultClip
  have mean (o : Observation ℝ) : f.fitted (.replicate 2 0) o = 2⁻¹ := by
    simp [f, Family.fitted, Family.mean, Transcendental.expit]
  have sums : f.observationwise [⟨[4], 0, 1⟩, ⟨[2], 1, 3⟩] (.replicate 2 0) =
      (⟨.ofFn ![-1, -1], .ofFn ![![7, 5 / 2], ![5 / 2, 1]]⟩ : System ℝ 2) := by
    refine congrArg₂ System.mk (congrArg Vec.ofFn ?_) (congrArg Mat.ofFn ?_)
    · funext i
      fin_cases i <;> norm_num [mean, Observation.covariate]
    · funext i j
      fin_cases i <;> fin_cases j <;>
        norm_num [f, mean, Observation.covariate, Family.variance]
  exact ⟨fun buffers => (whole _ reversed buffers).trans (congrArg pure sums),
    parts first second (List.cons_ne_nil _ _) (List.cons_ne_nil _ _) rfl⟩

end GeneralizedLinear

end BalanceFit
