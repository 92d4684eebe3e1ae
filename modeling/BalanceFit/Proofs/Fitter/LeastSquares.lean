import Mathlib.Algebra.BigOperators.Field
import Mathlib.Algebra.Order.Field.Basic
import Mathlib.Analysis.SpecialFunctions.Log.Basic
import Mathlib.Analysis.SpecialFunctions.Sigmoid
import Mathlib.LinearAlgebra.Matrix.DotProduct
import Mathlib.LinearAlgebra.Matrix.ToLinearEquiv
import Mathlib.Tactic.Linarith
import Mathlib.Tactic.Ring
import BalanceFit.Proofs.Fitter.Diagnostics
import BalanceFit.Proofs.Model.Family
import BalanceFit.Proofs.Model.LeastNorm
import BalanceFit.Proofs.Newton.Agreement
import BalanceFit.Proofs.Newton.FirstVisit

/-!
# Where a fit begins

The warm start of a generalized linear model is the least-squares solution for the linked responses,
and the first iterate that is evaluated. If the balance there is within its tolerance the fit ends
at once.

For a linear model without an intercept the link changes nothing, and the normal equations of the
warm start say that the balance is zero. So what is left of the balance is the ridge, and without a
ridge no Newton step is ever taken, even if the Jacobian is singular.

## Main definitions

* `Line.isIteration` : which lines count evaluations

## Main statements

* `GeneralizedLinear.isLeastNorm_start` : the start is the least-squares solution of least norm
* `GeneralizedLinear.first_visit_of_solve` : what a fit shows and prints first
* `GeneralizedLinear.firstStop_of_balanced` : what belongs to a start that is in balance
* `GeneralizedLinear.solve_linear` : the fit of a linear model
-/

namespace BalanceFit

/-- Whether a line counts an evaluation. -/
def Line.isIteration {α : Type} (line : Line α) : Bool := line.number?.isSome

namespace GeneralizedLinear

open Newton Run

section Beginning

variable {α σ : Type} [Scalar α] [Transcendental α] [LeastSquares α] {g : GeneralizedLinear α}
  {f : Family α} {config : Config α} {store : Store α} {observer : Option (Observer σ α)}
  {o : Observation α} {v : Int}

/-- The warm start returns the start, unless something keeps the fit from its iteration. -/
theorem start_warmStart (family : g.family = some f) (member : o ∈ store.log) (u : σ) :
    (Run.start u (Fitter.warmStart ⟨g.model.lift, config, store⟩)).1 =
      (g.prepare config o.x.length).map fun _ => (g.start f o.x.length store.log).toList :=
  (sameEffect_warmStart family member).start_eq u

/-- **What a fit shows and prints first**: the start, with the regularized balance there. -/
theorem first_visit_of_solve (family : g.family = some f) (member : o ∈ store.log)
    (leveled : config.verbosity = .level v) (room : g.room o.x.length = .ok ())
    (looks : ∀ o ∈ observer, o.LooksOnly) {u : σ} {r : FitResult (List α) α} {w : World σ α}
    (evaluated : 1 ≤ r.iterations)
    (returned : Run.start u (Fitter.solve ⟨g.model.lift, config, store⟩ observer) = (.ok r, w)) :
    let start := g.start f o.x.length store.log
    let balance := (g.ridgeSystem f config store.log start).balance
    (observer.isSome → w.visits.toList.head? = some ⟨start.toList, balance.toList⟩) ∧
      (1 ≤ v → w.lines.toList.find? Line.isIteration = some (.iteration 1 balance.absTotal)) := by
  intro start balance
  obtain ⟨beta, q, w₁, w₂, w₃, w₄, -, started, iterated, rfl, before, after⟩ :=
    Fitter.exists_newton_of_solve returned
  obtain ⟨_, warmed⟩ := (sameEffect_warmStart family member).exists_returns started w₁ rfl
  rw [prepare_of_room config room, leveled] at warmed
  obtain ⟨same, -⟩ := returns_ofExcept_iff.1 warmed
  cases same
  obtain ⟨s, first⟩ := (Vec.ofList_toList_iff (fun _ b => ∃ s,
    FirstVisit g.model.lift store config observer w₃ w₄ b s) start).1
      (first_visit_of_newton looks evaluated iterated)
  obtain ⟨u', ran⟩ := first.ran
  rw [computes family ⟨_, Store.columns?_of_mem member, rfl⟩ start] at ran
  cases ran
  refine ⟨fun shown => ?_, fun loud => ?_⟩
  · obtain ⟨later, visits⟩ := first.shown shown
    rw [after.visits, ← visits, before.visits]
    rfl
  · obtain ⟨later, lines⟩ := first.printed v loud leveled
    obtain ⟨early, lines', uncounted⟩ := before.lines
    obtain ⟨late, lines'', -⟩ := after.lines
    -- What is printed before the iteration counts nothing.
    have nothing : early.find? Line.isIteration = none := by
      rw [List.find?_eq_none]
      intro line member
      rw [Line.isIteration, (uncounted line member).1]
      exact Bool.false_ne_true
    rw [lines'', ← lines, lines', List.find?_append, List.find?_append, List.find?_append,
      List.find?_append, nothing]
    rfl

end Beginning

section Exact

variable {K σ : Type} [Field K] [LinearOrder K] [Transcendental K] [LeastSquares K]
  {g : GeneralizedLinear K} {f : Family K} {config : Config K} {store : Store K}
  {observer : Option (Observer σ K)} {o : Observation K}

/-- In exact arithmetic the result of a fit belongs to the first stop along Newton's sequence. -/
theorem solve_eq_firstStop (family : g.family = some f) (accepted : config.accepted = true)
    (passive : ∀ o ∈ observer, o.Passive) (member : o ∈ store.log) (u : σ) :
    (Run.start u (Fitter.solve ⟨g.model.lift, config, store⟩ observer)).1 =
      (g.prepare config o.x.length).map fun _ =>
        (firstStop config (g.ridgeSystem f config store.log)
          (g.start f o.x.length store.log)).map Vec.toList := by
  refine start_solve_of_newton family member ?_
  have computes := computes (σ := σ) family ⟨_, Store.columns?_of_mem member, rfl⟩
  rw [if_pos (Vec.isFinite_eq_true _)]
  exact start_newton_of_finite accepted computes passive (Vec.isFinite_eq_true _) u

omit [Transcendental K] [LeastSquares K] in
/-- If the start is in balance, that is the first stop. -/
theorem firstStop_of_balanced {n : Nat} (accepted : config.accepted = true)
    {system : Vec K n → System K n} {start : Vec K n}
    (balanced : (system start).balance.absTotal ≤ config.balanceTol) :
    (firstStop config system start).map Vec.toList =
      ⟨.converged, start.toList, 1, (system start).balance.absTotal,
        if config.history then some [start.toList] else none⟩ := by
  have first : firstStop config system start = stoppedAt config system start .converged 0 0 :=
    firstStop_of_stop (k := 0) (Config.one_le_maxIter accepted)
      (fun i before => absurd before (Nat.not_lt_zero i))
      (stop?_of_balanced rfl (Scalar.le_iff.2 balanced))
  rw [first, FitResult.map, stoppedAt]
  congr 1
  cases config.history <;> rfl

variable [IsStrictOrderedRing K] {p : Nat}

/-- **The start is the least-squares solution of least norm** for the linked responses, whatever the
rank of the design. -/
theorem isLeastNorm_start [LeastSquares.Lawful K] (f : Family K) {log : List (Observation K)}
    (nonneg : ∀ o ∈ log, 0 ≤ o.weight) (p : Nat) :
    IsLeastNorm (Design.squares (log.map fun o => Design.sample p false (f.linked o)))
      ((⟨some f, false⟩ : GeneralizedLinear K).start f p log ·) := by
  have same : (⟨some f, false⟩ : GeneralizedLinear K).start f p log =
      (normalEquations f p log).solution :=
    Vec.ofListPadded_toList _
  rw [same]
  exact Design.isLeastNorm_squares (List.forall_mem_map.2 nonneg)
    (normalEquations f p log).isLeastNorm_solution

omit [LeastSquares K] in
/-- Where the normal equations of a linear model are solved its balance is zero. -/
theorem balance_linear_eq_zero {samples : List (Sample K p)} {b : Vec K p}
    (solution : (NormalEquations.ofSamples samples).IsSolution (b ·)) (i : Fin p) :
    (Family.linear.system samples b).balance i = 0 := by
  have equation := solution i
  rw [NormalEquations.ofSamples, Design.mulVec_gram, Design.moment_apply, Design.moment_apply,
    Design.total_eq_sum, Design.total_eq_sum, List.map_map, List.map_map, List.map_map] at equation
  rw [Family.system, Design.moment_apply, Design.total_eq_sum, List.map_map]
  apply add_eq_right.1 (Eq.trans _ equation)
  rw [← List.sum_map_add]
  refine congrArg List.sum (List.map_congr_left fun s _ => ?_)
  change s.row i * (s.weight * (s.row.dot b - s.y)) + s.row i * (s.weight * s.y) =
    s.row i * (s.weight * Design.product s.row (b ·))
  rw [Design.dot_eq_product]
  ring

omit [LeastSquares K] in
/-- So the ridge is all there is of the regularized balance. -/
theorem absTotal_balance_linear {samples : List (Sample K p)} {b : Vec K p} {epsilon : K}
    (nonneg : 0 ≤ epsilon) (solution : (NormalEquations.ofSamples samples).IsSolution (b ·)) :
    ((Family.linear.system samples b).regularize epsilon b).balance = b.map (2 * epsilon * ·) ∧
      ((Family.linear.system samples b).regularize epsilon b).balance.absTotal =
        2 * epsilon * ∑ i, |b i| := by
  have entry (i : Fin p) : ((Family.linear.system samples b).regularize epsilon b).balance i =
      2 * epsilon * b i := by
    rw [System.regularize_balance_apply, balance_linear_eq_zero solution, zero_add, Nat.cast_ofNat]
  constructor
  · ext i
    rw [entry, Vec.map_apply]
  · rw [Vec.absTotal_eq_sum, Finset.mul_sum]
    refine Finset.sum_congr rfl fun i _ => ?_
    rw [entry, abs_mul, abs_of_nonneg (mul_nonneg zero_le_two nonneg)]

variable [LeastSquares.Lawful K]

/-- **The fit of a linear model without an intercept** begins at the least-squares solution of least
norm, whatever the rank of the design. There the balance is zero, and the ridge is all there is of
the regularized balance: its total is the first one that is reported. If it is within its tolerance,
as it always is without a ridge, the fit ends there and no step is taken. -/
theorem solve_linear (accepted : config.accepted = true) (passive : ∀ o ∈ observer, o.Passive)
    (member : o ∈ store.log) (nonneg : ∀ o ∈ store.log, 0 ≤ o.weight) (u : σ) :
    let g : GeneralizedLinear K := ⟨some .linear, false⟩
    let samples := store.log.map (Design.sample o.x.length false)
    let run := Run.start u (Fitter.solve ⟨g.model.lift, config, store⟩ observer)
    ∃ b : Vec K o.x.length, IsLeastNorm (Design.squares samples) (b ·) ∧
      (∀ x, IsLeastNorm (Design.squares samples) x → x = (b ·)) ∧
      (∃ s, g.evaluate o.x.length store (.ofVec b) = .ok s ∧ ∀ i, s.balance i = 0) ∧
      ∃ r, run.1 = (config.verbosity.atLeast 1).map (fun _ => r) ∧
        (∀ v, config.verbosity = .level v →
          (observer.isSome → run.2.visits.toList.head? =
            some ⟨b.toList, (b.map (2 * config.epsilon * ·)).toList⟩) ∧
          (1 ≤ v → run.2.lines.toList.find? Line.isIteration =
            some (.iteration 1 (2 * config.epsilon * ∑ i, |b i|)))) ∧
        (2 * config.epsilon * ∑ i, |b i| ≤ config.balanceTol ∨ config.epsilon = 0 →
          r = ⟨.converged, b.toList, 1, 2 * config.epsilon * ∑ i, |b i|,
            if config.history then some [b.toList] else none⟩) := by
  intro g samples run
  let b : Vec K o.x.length := g.start .linear o.x.length store.log
  have ridge : 0 ≤ config.epsilon := Scalar.isThreshold_iff.1 (Config.isThreshold_epsilon accepted)
  have tolerance : 0 ≤ config.balanceTol :=
    Scalar.isThreshold_iff.1 (Config.isThreshold_balanceTol accepted)
  have weights : ∀ s ∈ samples, 0 ≤ s.weight := List.forall_mem_map.2 nonneg
  have least : IsLeastNorm (Design.squares samples) (b ·) :=
    isLeastNorm_start .linear nonneg o.x.length
  have solution := (Design.forall_squares_le_iff weights).1 least.least
  obtain ⟨balance, total⟩ : (g.ridgeSystem .linear config store.log b).balance =
        b.map (2 * config.epsilon * ·) ∧
      (g.ridgeSystem .linear config store.log b).balance.absTotal =
        2 * config.epsilon * ∑ i, |b i| :=
    absTotal_balance_linear ridge solution
  let r := (firstStop config (g.ridgeSystem .linear config store.log) b).map Vec.toList
  have result : run.1 = (config.verbosity.atLeast 1).map fun _ => r := by
    rw [← prepare_of_no_intercept (g := g) config rfl o.x.length]
    exact solve_eq_firstStop rfl accepted passive member u
  have columns := Store.columns?_of_mem member
  refine ⟨b, least, fun x other => Design.eq_of_isLeastNorm weights other least, ?_, r, result,
    fun v leveled => ?_, fun small => ?_⟩
  · exact ⟨_, (evaluate_eq_ok_iff rfl).2 ⟨⟨_, columns, rfl⟩, rfl⟩, balance_linear_eq_zero solution⟩
  · rw [leveled] at result
    have looks : ∀ o ∈ observer, o.LooksOnly :=
      fun o inside => Observer.Passive.looksOnly (passive o inside)
    have evaluated : 1 ≤ r.iterations :=
      one_le_iterations_firstStop config (g.ridgeSystem .linear config store.log) b
    obtain ⟨shown, printed⟩ := first_visit_of_solve (g := g) rfl member leveled rfl looks evaluated
      (Prod.ext result rfl)
    refine ⟨fun present => ?_, fun loud => ?_⟩
    · rw [← balance]
      exact shown present
    · rw [← total]
      exact printed loud
  · have within : 2 * config.epsilon * ∑ i, |b i| ≤ config.balanceTol := by
      rcases small with small | none
      · exact small
      · rw [none, mul_zero, zero_mul]
        exact tolerance
    rw [← total] at within ⊢
    exact firstStop_of_balanced accepted within

end Exact

/-- A single observation does not determine two coefficients. Of the lines that fit it the one with
equal coefficients is the shortest, and the ridge adds two to each side of its balance. -/
theorem solve_linear_collinear :
    let _ : LeastSquares ℝ := .exact ℝ
    let g : GeneralizedLinear ℝ := ⟨some .linear, false⟩
    let config : Config ℝ := ⟨1, 4, 0, 0, 3, .level 1, false⟩
    let store : Store ℝ := .ofLog 2 [⟨[1, 1], 2, 1⟩] (by simp)
    let run := Run.start () (Fitter.solve ⟨g.model.lift, config, store⟩ (some Observer.idle))
    run.1 = .ok ⟨.converged, [1, 1], 1, 4, none⟩ ∧
      run.2.visits.toList.head? = some ⟨[1, 1], [2, 2]⟩ ∧
      run.2.lines.toList.find? Line.isIteration = some (.iteration 1 4) := by
  intro _ g config store run
  have := LeastSquares.lawful_exact (K := ℝ)
  let o : Observation ℝ := ⟨[1, 1], 2, 1⟩
  have accepted : config.accepted = true := by
    simp [config, Config.accepted]
  have member : o ∈ store.log := List.mem_singleton_self o
  have nonneg : ∀ o ∈ store.log, 0 ≤ o.weight := by
    intro o' inside
    rw [List.mem_singleton.1 inside]
    exact zero_le_one
  obtain ⟨b, -, unique, -, r, result, traced, ended⟩ :=
    solve_linear accepted Observer.passive_idle member nonneg ()
  -- The squares are those of the sum of both coefficients less two.
  have squares (v : Fin 2 → ℝ) :
      Design.squares (store.log.map (Design.sample 2 false)) v = (v 0 + v 1 - 2) ^ 2 := by
    change Design.squares [Design.sample 2 false o] v = _
    simp [Design.squares, Design.product, Design.sample, Design.row, o]
  have least : IsLeastNorm (Design.squares (store.log.map (Design.sample 2 false)))
      (fun _ => (1 : ℝ)) := by
    constructor
    · intro y
      rw [squares, squares]
      norm_num
      exact sq_nonneg _
    · intro y least
      have zero := least fun _ => 1
      rw [squares, squares] at zero
      norm_num at zero
      rw [Fin.sum_univ_two, Fin.sum_univ_two]
      nlinarith [sq_nonneg (y 0 - y 1)]
  have entry (i : Fin 2) : b i = 1 := (congrFun (unique _ least) i).symm
  have entries : b.toList = [1, 1] := by
    simp [Vec.toList_eq_ofFn, entry]
  have ridge : (b.map (2 * config.epsilon * ·)).toList = [2, 2] := by
    have sides (i : Fin 2) : b.map (2 * config.epsilon * ·) i = 2 := by
      rw [Vec.map_apply, entry, mul_one]
      exact mul_one 2
    simp [Vec.toList_eq_ofFn, sides]
  have total : 2 * config.epsilon * ∑ i, |b i| = 4 := by
    simp [entry, config, o]
    norm_num
  obtain ⟨shown, printed⟩ := traced 1 rfl
  have small : 2 * config.epsilon * ∑ i, |b i| ≤ config.balanceTol := total.le
  rw [ended (.inl small), entries, total] at result
  rw [entries, ridge] at shown
  rw [total] at printed
  exact ⟨result, shown rfl, printed (Int.le_refl 1)⟩

end GeneralizedLinear

end BalanceFit
