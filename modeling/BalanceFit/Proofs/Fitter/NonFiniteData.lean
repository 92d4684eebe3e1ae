import BalanceFit.Proofs.Fitter.WarmStart
import BalanceFit.Proofs.Scalar.Ranged

/-!
# Data that are not finite never yield a fit

An infinity or NaN in a predictor, a response or a weight ends a fit before its first step. The link
of a family may hide such a response from the warm start, but the first balance shows it: if the
starting coefficients are finite, then so are all predictors and weights; and if the balance there
is finite, then so are the responses.

## Main definitions

* `Observation.IsFinite` : all numbers of an observation are finite

## Main statements

* `GeneralizedLinear.isFinite_of_start` : finite starting coefficients vouch for predictors and
  weights
* `Family.isFinite_of_balance` : a finite balance vouches for responses
* `GeneralizedLinear.solve_of_nonFinite` : a fit to other data diverges before the first step
-/

namespace BalanceFit

variable {α σ : Type} [Scalar α]

/-- The predictor, the response and the weight are finite. -/
def Observation.IsFinite (o : Observation α) : Prop :=
  (∀ a ∈ o.x, Scalar.isFinite a = true) ∧ Scalar.isFinite o.y = true ∧
    Scalar.isFinite o.weight = true

variable [Transcendental α] [Scalar.Propagates α]

open Scalar.Propagates

section Parts

variable {g : GeneralizedLinear α} {f : Family α} {n : Nat}
  {log : List (Observation α)} {o : Observation α}

/-- A balance that is finite vouches for the residuals. -/
theorem Family.isFinite_of_balance {intercept : Bool} {beta : Vec α n} (positive : 0 < n)
    (finite : (f.system (log.map (Design.sample n intercept)) beta).balance.isFinite = true)
    (member : o ∈ log) :
    Scalar.isFinite (f.meanAt beta (Design.sample n intercept o) - o.y) = true := by
  let s := Design.sample n intercept o
  have term : (s.row, f.residual beta s) ∈
      (log.map (Design.sample n intercept)).map fun s => (s.row, f.residual beta s) :=
    List.mem_map_of_mem (List.mem_map_of_mem member)
  have residual : Scalar.isFinite (f.residual beta s) = true :=
    (Design.isFinite_of_moment (Vec.isFinite_iff.1 finite ⟨0, positive⟩) term).2
  exact (of_mul residual).2

namespace GeneralizedLinear

/-- Normal equations that are finite vouch for predictors and weights. -/
theorem isFinite_of_normalEquations (finite : (normalEquations f o.x.length log).isFinite = true)
    (member : o ∈ log) (nonempty : 1 ≤ o.x.length) :
    (∀ a ∈ o.x, Scalar.isFinite a = true) ∧ Scalar.isFinite o.weight = true ∧
      Scalar.isFinite (f.link o.y) = true := by
  rw [NormalEquations.isFinite, Bool.and_eq_true] at finite
  obtain ⟨matrix, side⟩ := finite
  let row := Design.row o.x.length false o.x
  let samples := log.map fun o' => Design.sample o.x.length false (f.linked o')
  have sample : Design.sample o.x.length false (f.linked o) ∈ samples :=
    List.mem_map_of_mem (f := fun o' => Design.sample o.x.length false (f.linked o')) member
  -- On the diagonal of the matrix every entry of the predictor meets the weight.
  have square (j : Fin o.x.length) :
      Scalar.isFinite (row j) = true ∧ Scalar.isFinite o.weight = true := by
    have entry := Vec.isFinite_iff.1 (Vec.all_eq_true_iff.1 matrix j) j
    have parts := Design.isFinite_of_gram entry
      (List.mem_map_of_mem (f := fun s => (s.row, s.weight)) sample)
    exact parts.2
  have link : Scalar.isFinite (o.weight * f.link o.y) = true :=
    (Design.isFinite_of_moment (Vec.isFinite_iff.1 side ⟨0, nonempty⟩)
      (List.mem_map_of_mem (f := fun s => (s.row, s.weight * s.y)) sample)).2
  refine ⟨fun a entry => ?_, (square ⟨0, nonempty⟩).2, (of_mul link).2⟩
  obtain ⟨i, bound, rfl⟩ := List.getElem_of_mem entry
  have same : row ⟨i, bound⟩ = o.x[i] := by
    simp [row, Design.row, bound]
  rw [← same]
  exact (square _).1

variable [LeastSquares α]

/-- Starting coefficients that are finite come from normal equations that are. -/
theorem isFinite_of_start {p : Nat} (finite : (g.start f p log).isFinite = true)
    (member : o ∈ log) (length : o.x.length = p) (nonempty : 1 ≤ p) :
    (∀ a ∈ o.x, Scalar.isFinite a = true) ∧ Scalar.isFinite o.weight = true ∧
      Scalar.isFinite (f.link o.y) = true := by
  subst length
  have place : 0 < g.dim o.x.length := Nat.add_pos_left nonempty _
  have entry : Scalar.isFinite (g.start f o.x.length log ⟨0, place⟩) = true :=
    Vec.isFinite_iff.1 finite _
  have first : g.start f o.x.length log ⟨0, place⟩ =
      (normalEquations f o.x.length log).solution ⟨0, nonempty⟩ := by
    have positive : 0 < o.x.length := nonempty
    rw [start, Vec.ofListPadded_apply, Vec.toList_eq_ofFn]
    simp [positive]
  rw [first] at entry
  exact isFinite_of_normalEquations (NormalEquations.isFinite_of_solution entry) member nonempty

end GeneralizedLinear

end Parts

namespace GeneralizedLinear

variable [LeastSquares α] {g : GeneralizedLinear α} {f : Family α}
  {config : Config α} {store : Store α} {o : Observation α}

/-- From finite starting coefficients, data that are not finite give a balance that is not. -/
theorem assess_start_of_nonFinite (finite : (g.start f o.x.length store.log).isFinite = true)
    (member : o ∈ store.log) (broken : ¬ o.IsFinite) :
    Newton.assess config (g.ridgeSystem f config store.log (g.start f o.x.length store.log)) =
      .ok (.stop (.diverged .nonFiniteBalance)) := by
  obtain ⟨nonempty, -⟩ := store.uniform o member
  obtain ⟨x, weight, -⟩ := isFinite_of_start finite member rfl nonempty
  refine Newton.assess_of_nonFinite ?_
  rw [← Bool.not_eq_true]
  intro total
  have balance := (System.isFinite_of_regularize (Vec.isFinite_of_absTotal total)).1
  have residual := Family.isFinite_of_balance (Nat.add_pos_left nonempty _) balance member
  exact broken ⟨x, (of_sub residual).2, weight⟩

/-- **A fit to data that are not finite diverges before its first step.** Unless something keeps the
fit from its iteration, it ends at the starting coefficients: because they are not finite, or
because the first balance is not. -/
theorem solve_of_nonFinite (family : g.family = some f) (positive : 1 ≤ config.maxIter)
    (member : o ∈ store.log) (broken : ¬ o.IsFinite) (u : σ) :
    ∃ r : FitResult (List α) α,
      (Run.start u (Fitter.solve ⟨g.model.lift, config, store⟩ none)).1 =
          (g.prepare config o.x.length).map (fun _ => r) ∧
        (r.outcome = .diverged .nonFiniteWarmStart ∧ r.iterations = 0 ∨
          r.outcome = .diverged .nonFiniteBalance ∧ r.iterations = 1) ∧
        r.beta = (g.start f o.x.length store.log).toList ∧
        r.history = if config.history then some [r.beta] else none := by
  let start := g.start f o.x.length store.log
  let p := Newton.Progress.start config.history start
  have history : (p.history.map List.reverse).map (·.map Vec.toList) =
      if config.history then some [start.toList] else none := by
    simp only [p, Newton.Progress.start]
    split <;> rfl
  by_cases finite : start.isFinite = true
  · -- The iteration begins, and the first assessment ends it.
    let s := g.ridgeSystem f config store.log start
    let r := (p.evaluated start s.balance.absTotal).result (.diverged .nonFiniteBalance)
    refine ⟨r.map Vec.toList, start_solve_of_newton family member ?_, .inr ⟨rfl, rfl⟩, rfl, history⟩
    have computes := computes (σ := σ) family (n := g.dim o.x.length)
      ⟨o.x.length, Store.columns?_of_mem member, rfl⟩
    rw [if_pos finite]
    refine Newton.start_newton_of_returns positive finite
      ⟨_, Newton.exists_visit computes Observer.passive_of_none 1 start _⟩ fun level leveled => ?_
    obtain ⟨m, budget⟩ := Nat.exists_eq_add_of_le' positive
    rw [newton, if_pos finite, budget]
    exact Run.start_eq_ok_iff.2 (Newton.exists_iterate_of_stop leveled computes
      Observer.passive_of_none m p (assess_start_of_nonFinite finite member broken) _)
  · -- The iteration does not begin.
    let r := p.result (.diverged .nonFiniteWarmStart)
    refine ⟨r.map Vec.toList, start_solve_of_newton family member ?_, .inl ⟨rfl, rfl⟩, rfl, history⟩
    rw [newton, if_neg finite, if_neg finite]
    rfl

/-- The link of a Poisson regression takes a response of minus infinity for one half, so the warm
start is finite. The first balance is not. -/
theorem solve_of_nonFinite_response :
    let _ : LeastSquares Ranged := .regular
    let g : GeneralizedLinear Ranged := ⟨some .poisson, false⟩
    let config : Config Ranged := ⟨0, 0, 0, 0, 5, .level 0, true⟩
    let store : Store Ranged := .ofLog 1 [⟨[1], 1 + 1, 1⟩, ⟨[1], .infinity true, 1⟩] (by simp)
    (Run.start () (Fitter.solve ⟨g.model.lift, config, store⟩ none)).1 =
        .ok ⟨.diverged .nonFiniteBalance, [0], 1, .infinity false, some [[0]]⟩ ∧
      ∃ r : FitResult (List Ranged) Ranged,
        (Run.start () (Fitter.solve ⟨g.model.lift, config, store⟩ none)).1 = .ok r ∧
          (r.outcome = .diverged .nonFiniteWarmStart ∧ r.iterations = 0 ∨
            r.outcome = .diverged .nonFiniteBalance ∧ r.iterations = 1) := by
  intro _ g config store
  refine ⟨by decide +kernel, ?_⟩
  have member : (⟨[1], .infinity true, 1⟩ : Observation Ranged) ∈ store.log :=
    List.mem_cons_of_mem _ List.mem_cons_self
  have broken : ¬ (⟨[1], .infinity true, 1⟩ : Observation Ranged).IsFinite :=
    fun finite => Bool.false_ne_true finite.2.1
  have positive : 1 ≤ config.maxIter := by decide
  obtain ⟨r, returned, ended, -⟩ :=
    solve_of_nonFinite (g := g) rfl positive member broken ()
  have prepared : g.prepare config 1 = .ok () := prepare_of_room config (room_of_le (by decide))
  exact ⟨r, returned.trans (by rw [List.length_singleton, prepared]; rfl), ended⟩

end GeneralizedLinear

end BalanceFit
