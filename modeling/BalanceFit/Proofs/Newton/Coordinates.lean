import BalanceFit.Proofs.Model.Basis
import BalanceFit.Proofs.Model.Evaluation
import BalanceFit.Proofs.Newton.Assess

/-!
# Newton's method in another basis of the predictors

Without an intercept and a ridge, a regular change of the basis of the predictors only gives the
iterates other coordinates: if every predictor is multiplied by the transpose of a matrix, and the
start by its inverse, then so are the iterates, and the balances are multiplied by the transpose.
The tests are not the same in the two bases, nor are the factors that the systems are scaled with.
So one iteration can end before the other one. But as long as both go on they are at the same point.

## Main definitions

* `Observation.transformed` : the observation with its predictor in another basis
* `Newton.Solves` : an assessment that gets as far as its solve, and the outcome

## Main statements

* `Newton.Solves.transformed` : the outcomes of solves correspond
* `GeneralizedLinear.system_eq_of_evaluated` : the systems at corresponding iterates
* `GeneralizedLinear.iterate_eq_of_evaluated` : the iterates
* `GeneralizedLinear.visits_transformed` : what the observers of two runs were shown
* `GeneralizedLinear.evaluated_transformed` : what corresponds wherever both iterations evaluate
-/

namespace BalanceFit

open Matrix

variable {K σ σ' : Type} [Field K] {n : Nat}

/-- The observation with its predictor in another basis. -/
def Observation.transformed (t : Matrix (Fin n) (Fin n) K) (o : Observation K) : Observation K :=
  { o with x := ((Vec.ofListPadded n o.x).transformed t).toList }

variable [LinearOrder K]

theorem Design.sample_transformed (t : Matrix (Fin n) (Fin n) K) (o : Observation K) :
    sample n false (o.transformed t) = (sample n false o).transformed t :=
  congrArg (Sample.mk · o.y o.weight) (Vec.ofListPadded_toList _)

theorem System.regularize_zero (b : Vec K n) (s : System K n) : s.regularize 0 b = s := by
  refine congrArg₂ System.mk ?_ ?_
  · ext i
    rw [Vec.zipWith_apply, mul_zero, zero_mul, add_zero]
  · ext i j
    rw [Mat.ofFn_apply, mul_zero, add_zero, ite_self]

namespace Newton

variable {config config' : Config K} {s : System K n} {r r' : LinearSolve (Vec K n)}

/-- The assessment of the system gets as far as the solve of the scaled system, and `r` is its
outcome. -/
structure Solves (config : Config K) (s : System K n) (r : LinearSolve (Vec K n)) : Prop where
  above : config.balanceTol < s.balance.absTotal
  solved : ∃ c, Scaling.ofJacobian? config.jacobianTol s.jacobian = .ok (some c) ∧
    (c.apply s).newtonStep = .ok r

/-- The outcome decides. -/
theorem Solves.assess_eq (solves : Solves config s r) : assess config s = Verdict.ofSolve r := by
  obtain ⟨c, scaled, solved⟩ := solves.solved
  have above : ¬ Scalar.le s.balance.absTotal config.balanceTol = true :=
    mt Scalar.le_iff.1 solves.above.not_ge
  rw [assess, scaled]
  simp only [Scalar.isFinite_eq_true, above]
  change (c.apply s).newtonStep >>= Verdict.ofSolve = _
  rw [solved]
  rfl

/-- A step comes from a solve. -/
theorem Solves.of_step {delta : Vec K n} (assessed : assess config s = .ok (.step delta)) :
    Solves config s ⟨some delta, none⟩ := by
  cases assessed_of_assess assessed with
  | solved _ above scaled solved =>
    exact ⟨not_le.1 (mt Scalar.le_iff.2 above), _, scaled, solved⟩

variable [IsStrictOrderedRing K]

/-- **The outcomes of solves correspond**, although the factors of the scalings do not. -/
theorem Solves.transformed {t : Matrix (Fin n) (Fin n) K} (regular : t.det ≠ 0)
    (solves : Solves config s r) (solves' : Solves config' (s.transformed t) r') :
    r' = r.map (Vec.transformed tᵀ⁻¹) := by
  -- Neither factor is zero, so both outcomes are those of the systems as they are.
  have unscaled {config : Config K} {s : System K n} {r : LinearSolve (Vec K n)}
      (solves : Solves config s r) : s.newtonStep = .ok r := by
    obtain ⟨c, scaled, solved⟩ := solves.solved
    rw [← solved, System.newtonStep_apply (Scaling.factor_ne_zero scaled)]
  have outcome := unscaled solves'
  rw [System.newtonStep_transformed regular, unscaled solves] at outcome
  exact (Except.ok.inj outcome).symm

end Newton

namespace GeneralizedLinear

open Newton

variable [Transcendental K] {g : GeneralizedLinear K} {f : Family K} {store store' : Store K}
  {config config' : Config K} {observer : Option (Observer σ K)}
  {observer' : Option (Observer σ' K)} {start : Vec K n} {u : σ} {u' : σ'} {number : Nat}
  {b b' : Vec K n} {s s' : System K n}

/-- Without a ridge the system of an evaluation is the one of the family. -/
theorem eq_system_of_evaluated (family : g.family = some f) (intercept : g.intercept = false)
    (ridgeless : config.epsilon = 0) (looks : ∀ o ∈ observer, o.LooksOnly)
    (evaluated : Evaluated g.model.lift store config observer start u number b s) :
    s = f.system (store.log.map (Design.sample n false)) b := by
  obtain ⟨p, w, w', -, -, -, visited⟩ := evaluated
  obtain ⟨-, t, u, u', ran, rfl⟩ := visit_eq_of_looksOnly looks visited
  obtain ⟨-, rfl⟩ := (evaluate_eq_ok_iff family).1 (evaluate_eq_of_run ran)
  rw [ridgeless, System.regularize_zero, intercept]

variable [IsStrictOrderedRing K] {m : Matrix (Fin n) (Fin n) K}

section Corresponding

variable (family : g.family = some f) (intercept : g.intercept = false)
  (ridgeless : config.epsilon = 0) (ridgeless' : config'.epsilon = 0)
  (looks : ∀ o ∈ observer, o.LooksOnly) (looks' : ∀ o ∈ observer', o.LooksOnly)
  (regular : m.det ≠ 0) (log : store'.log = store.log.map (Observation.transformed mᵀ))
  (evaluated : Evaluated g.model.lift store config observer start u number b s)
  (evaluated' : Evaluated g.model.lift store' config' observer' (start.transformed m⁻¹) u' number
    b' s')

include family intercept ridgeless ridgeless' looks looks' regular log evaluated evaluated'

omit [IsStrictOrderedRing K] in
/-- Where the iterates correspond, the systems do. -/
theorem system_eq_of_evaluated (same : b' = b.transformed m⁻¹) : s' = s.transformed mᵀ := by
  have samples : (store.log.map (Observation.transformed mᵀ)).map (Design.sample n false) =
      (store.log.map (Design.sample n false)).map (Sample.transformed mᵀ) := by
    rw [List.map_map, List.map_map]
    exact List.map_congr_left fun o _ => Design.sample_transformed mᵀ o
  rw [eq_system_of_evaluated family intercept ridgeless looks evaluated,
    eq_system_of_evaluated family intercept ridgeless' looks' evaluated', log, samples, same]
  exact f.system_transformed _ (Vec.mulVec_transformed_inv regular b)

/-- **The iterates correspond.** The induction is on the number of the evaluation: at corresponding
iterates the systems do, and corresponding systems have corresponding steps. -/
theorem iterate_eq_of_evaluated : b' = b.transformed m⁻¹ := by
  induction number generalizing b b' s s' with
  | zero => exact absurd evaluated.one_le (Nat.not_succ_le_zero 0)
  | succ number ih =>
    -- Both evaluations are the first ones, or both follow a step: their numbers are the same.
    rcases evaluated.eq_start_or_step looks with ⟨first, rfl⟩ | ⟨b₀, s₀, delta, before, step, rfl⟩
    · rcases evaluated'.eq_start_or_step looks' with ⟨-, start⟩ | ⟨_, _, _, before', -, -⟩
      · exact start
      · cases first
        exact absurd before'.one_le (Nat.not_succ_le_zero 0)
    · rcases evaluated'.eq_start_or_step looks' with
        ⟨first, -⟩ | ⟨b₁, s₁, delta', before', step', rfl⟩
      · cases first
        exact absurd before.one_le (Nat.not_succ_le_zero 0)
      · have same : b₁ = b₀.transformed m⁻¹ := ih before before'
        obtain rfl : s₁ = s₀.transformed mᵀ := system_eq_of_evaluated family intercept ridgeless
          ridgeless' looks looks' regular log before before' same
        have regular' : mᵀ.det ≠ 0 := det_transpose m ▸ regular
        have steps := (Solves.of_step step).transformed regular' (Solves.of_step step')
        rw [transpose_transpose] at steps
        have moved : delta' = delta.transformed m⁻¹ :=
          Option.some.inj (congrArg LinearSolve.solution steps)
        rw [same, moved, Vec.transformed_sub]

end Corresponding

/-- **The visits of two runs correspond.** If iterations in the two bases return, and observers that
only look were there, then at every number that both of them were called with they were shown
corresponding iterates and balances. -/
theorem visits_transformed (family : g.family = some f) (intercept : g.intercept = false)
    (ridgeless : config.epsilon = 0) (ridgeless' : config'.epsilon = 0)
    (observed : observer.isSome) (observed' : observer'.isSome)
    (looks : ∀ o ∈ observer, o.LooksOnly) (looks' : ∀ o ∈ observer', o.LooksOnly)
    (regular : m.det ≠ 0) (log : store'.log = store.log.map (Observation.transformed mᵀ))
    {r r' : FitResult (Vec K n) K} {w : World σ K} {w' : World σ' K}
    (returned : Run.start u (newton g.model.lift store config observer start) = (.ok r, w))
    (returned' : Run.start u'
      (newton g.model.lift store' config' observer' (start.transformed m⁻¹)) = (.ok r', w')) :
    w.visits.size = r.iterations ∧ w'.visits.size = r'.iterations ∧
      ∀ i < min r.iterations r'.iterations, ∃ b balance : Vec K n,
        w.visits[i]? = some ⟨b.toList, balance.toList⟩ ∧
          w'.visits[i]? =
            some ⟨(b.transformed m⁻¹).toList, (balance.transformed mᵀ).toList⟩ := by
  have shown := shown_of_newton observed looks returned
  have shown' := shown_of_newton observed' looks' returned'
  refine ⟨shown.size, shown'.size, fun i bound => ?_⟩
  obtain ⟨b, s, evaluated, visit⟩ := shown.evaluated i (lt_min_iff.1 bound).1
  obtain ⟨b', s', evaluated', visit'⟩ := shown'.evaluated i (lt_min_iff.1 bound).2
  have iterate := iterate_eq_of_evaluated family intercept ridgeless ridgeless' looks looks' regular
    log evaluated evaluated'
  have system := system_eq_of_evaluated family intercept ridgeless ridgeless' looks looks' regular
    log evaluated evaluated' iterate
  rw [iterate, system] at visit'
  exact ⟨b, s.balance, visit, visit'⟩

/-- **Newton's method does not depend on the basis of the predictors.** Every predictor is
multiplied by the transpose of a regular matrix and the start by its inverse. There is neither an
intercept nor a ridge, and the observers only look. At every number that evaluations have in both
iterations the iterate is multiplied by the inverse and its balance by the transpose. If both
assessments there get as far as their solves, the step is multiplied by the inverse, too, and one of
the solves fails as singular exactly if the other one does. -/
theorem evaluated_transformed (family : g.family = some f) (intercept : g.intercept = false)
    (ridgeless : config.epsilon = 0) (ridgeless' : config'.epsilon = 0)
    (looks : ∀ o ∈ observer, o.LooksOnly) (looks' : ∀ o ∈ observer', o.LooksOnly)
    (regular : m.det ≠ 0) (log : store'.log = store.log.map (Observation.transformed mᵀ))
    (evaluated : Evaluated g.model.lift store config observer start u number b s)
    (evaluated' : Evaluated g.model.lift store' config' observer' (start.transformed m⁻¹) u' number
      b' s') :
    b' = b.transformed m⁻¹ ∧ s'.balance = s.balance.transformed mᵀ ∧
      ∀ r r', Solves config s r → Solves config' s' r' →
        r' = r.map (Vec.transformed m⁻¹) ∧
          (r'.reason = some .singularSystem ↔ r.reason = some .singularSystem) := by
  have iterate := iterate_eq_of_evaluated family intercept ridgeless ridgeless' looks looks' regular
    log evaluated evaluated'
  obtain rfl := system_eq_of_evaluated family intercept ridgeless ridgeless' looks looks' regular
    log evaluated evaluated' iterate
  refine ⟨iterate, rfl, fun r r' solves solves' => ?_⟩
  have outcome := solves.transformed (det_transpose m ▸ regular) solves'
  rw [transpose_transpose] at outcome
  rw [outcome]
  exact ⟨rfl, Iff.rfl⟩

omit [Field K] [LinearOrder K] [Transcendental K] [IsStrictOrderedRing K] in
/-- A line through two responses is found in one step. In the other basis the start, the step and
the coefficients that are found are half as large. -/
theorem evaluated_transformed_line :
    let _ : Transcendental ℚ := ⟨id, id, id, id⟩
    let g : GeneralizedLinear ℚ := ⟨some .linear, false⟩
    let config : Config ℚ := ⟨0, 0, 0, 0, 5, .level 0, true⟩
    let store : Store ℚ := .push (.push (.empty none) ⟨[1, 0], 1, 1⟩ (by decide) nofun)
      ⟨[1, 1], 2, 1⟩ (by decide) (by rintro w ⟨⟩; rfl)
    let store' : Store ℚ := .push (.push (.empty none) ⟨[1, 1], 1, 1⟩ (by decide) nofun)
      ⟨[1, 3], 2, 1⟩ (by decide) (by rintro w ⟨⟩; rfl)
    let m : Matrix (Fin 2) (Fin 2) ℚ := !![1, 1; 0, 2]
    let vector (a b : ℚ) : Vec ℚ 2 := .ofList [a, b]
    let evaluated (store : Store ℚ) (start : Vec ℚ 2) :=
      Evaluated (g.model.lift : Model (Act Unit) ℚ) store config none start ()
    ∃ s s' t t',
      evaluated store (vector 2 2) 1 (vector 2 2) s ∧
      evaluated store' (vector 1 1) 1 (vector 1 1) s' ∧
      Solves config s ⟨some (vector 1 1), none⟩ ∧
      Solves config s' ⟨some (vector (1 / 2) (1 / 2)), none⟩ ∧
      evaluated store (vector 2 2) 2 (vector 1 1) t ∧
      evaluated store' (vector 1 1) 2 (vector (1 / 2) (1 / 2)) t' ∧
      s'.balance = s.balance.transformed mᵀ ∧ t'.balance = t.balance.transformed mᵀ ∧
      vector (1 / 2) (1 / 2) = (vector 1 1).transformed m⁻¹ ∧
      (⟨some (vector (1 / 2) (1 / 2)), none⟩ : LinearSolve (Vec ℚ 2)) =
        .map (Vec.transformed m⁻¹) ⟨some (vector 1 1), none⟩ := by
  intro _ g config store store' m vector evaluated
  let system (store : Store ℚ) (b : Vec ℚ 2) : System ℚ 2 :=
    Family.linear.system (store.log.map (Design.sample 2 false)) b
  have run (store : Store ℚ) (columns : store.ledger.columns? = some 2) (b delta : Vec ℚ 2)
      (step : assess config ((system store b).regularize 0 b) = .ok (.step delta))
      (long : ¬ Scalar.le delta.absTotal config.stepTol = true) :
      ∃ s t, evaluated store b 1 b s ∧ Solves config s ⟨some delta, none⟩ ∧
        evaluated store b 2 (Vec.zipWith (· - ·) b delta) t := by
    have computes : (g.model.lift : Model (Act Unit) ℚ).Computes store (system store) :=
      GeneralizedLinear.computes rfl ⟨2, columns, rfl⟩
    have first : evaluated store b 1 b _ := evaluated_start computes Observer.passive_of_none
    exact ⟨_, _, first, .of_step step, first.next computes Observer.passive_of_none step long⟩
  have regular : m.det ≠ 0 := by
    simp [m, Matrix.det_fin_two]
  have log : store'.log = store.log.map (Observation.transformed mᵀ) := by
    decide +kernel
  have inverse : m⁻¹ = !![1, -1 / 2; 0, 1 / 2] := by
    refine Matrix.inv_eq_right_inv ?_
    rw [Matrix.mul_fin_two, Matrix.one_fin_two]
    norm_num
  have start : vector 1 1 = (vector 2 2).transformed m⁻¹ := by
    rw [inverse]
    decide +kernel
  obtain ⟨s, t, first, solves, second⟩ := run store rfl (vector 2 2) (vector 1 1)
    (by decide +kernel) (by decide +kernel)
  obtain ⟨s', t', first', solves', second'⟩ := run store' rfl (vector 1 1)
    (vector (1 / 2) (1 / 2)) (by decide +kernel) (by decide +kernel)
  have same : Vec.zipWith (· - ·) (vector 2 2) (vector 1 1) = vector 1 1 := by decide +kernel
  have same' : Vec.zipWith (· - ·) (vector 1 1) (vector (1 / 2) (1 / 2)) =
    vector (1 / 2) (1 / 2) := by decide +kernel
  rw [same] at second
  rw [same'] at second'
  have looks (o : Observer Unit ℚ) (member : o ∈ none) : o.LooksOnly :=
    Observer.looksOnly_of_none o member
  refine ⟨s, s', t, t', first, first', solves, solves', second, second', ?_⟩
  rw [start] at first' second'
  obtain ⟨-, balance, outcomes⟩ := evaluated_transformed (g := g) rfl rfl rfl rfl looks looks
    regular log first first'
  obtain ⟨iterate, balance', -⟩ := evaluated_transformed (g := g) rfl rfl rfl rfl looks looks
    regular log second second'
  exact ⟨balance, balance', iterate, (outcomes _ _ solves solves').1⟩

end GeneralizedLinear

end BalanceFit
