import BalanceFit.Proofs.Fitter.NonFiniteData
import BalanceFit.Proofs.Newton.Agreement

/-!
# When an observation of weight zero changes a fit

An observation of weight zero adds nothing to a sum as long as its terms are finite. But zero times
an infinity is NaN: if the link of its response is infinite the observation spoils the warm start,
and if its mean overflows at some iterate it spoils the balance there. So a fit has the same result
with and without the observation, or it diverges for one of these two reasons where it would go on
without it.

## Main definitions

* `Family.IsHarmless` : an observation whose difference of mean and response is finite

## Main statements

* `Family.system_append_eq` : where it is harmless it leaves balance and Jacobian as they are
* `Newton.outcome_firstStop_of_broken`, `Newton.outcome_answer_of_broken` : at the first iterate
  where it is not, the iteration diverges
* `GeneralizedLinear.solve_append_weightless` : the result of a fit with such an observation
* `GeneralizedLinear.solve_append_weightless_overflow` : a fit that converges without it, and
  diverges with it
-/

namespace BalanceFit

variable {α σ : Type} [Scalar α] {n : Nat}

namespace Newton

variable {config : Config α} {system system' : Vec α n → System α n} {start : Vec α n}

/-- At a balance that is not finite the tests stop the iteration. -/
theorem stop?_of_nonFinite [Scalar.Propagates α] {s : System α n}
    (broken : s.balance.isFinite = false) : stop? config s = some (.diverged .nonFiniteBalance, 0) := by
  have total : Scalar.isFinite s.balance.absTotal = false := by
    rw [← Bool.not_eq_true] at broken ⊢
    exact mt Vec.isFinite_of_absTotal broken
  rw [stop?, total]
  rfl

/-- Suppose that at each iterate the second system either agrees with the first one or has a balance
that is not finite. If the latter happens at an iterate that the first iteration evaluates, then the
second iteration diverges there. -/
theorem outcome_firstStop_of_broken [Scalar.Propagates α] (positive : 1 ≤ config.maxIter)
    (harmless : Vec α n → Prop) (agree : ∀ b, harmless b → system' b = system b)
    (broken : ∀ b, ¬ harmless b → (system' b).balance.isFinite = false)
    (met : ∃ k < (firstStop config system start).iterations, ¬ harmless (ideal system start k)) :
    (firstStop config system' start).outcome = .diverged .nonFiniteBalance := by
  classical
  -- Up to the first such iterate the sequences are the same, and there is no stop.
  obtain ⟨evaluated, harmful⟩ := Nat.find_spec met
  let k := Nat.find met
  have before (i : Nat) (earlier : i < k) : harmless (ideal system start i) := by
    by_contra other
    exact Nat.find_min met earlier ⟨earlier.trans evaluated, other⟩
  have same (i : Nat) (bound : i ≤ k) : ideal system' start i = ideal system start i :=
    ideal_congr fun j earlier => agree _ (before j (by omega))
  have bound : k < config.maxIter := evaluated.trans_le (iterations_firstStop_le positive)
  have going (i : Nat) (earlier : i < k) : stop? config (system' (ideal system' start i)) = none := by
    rw [same i earlier.le, agree _ (before i earlier)]
    exact stop?_eq_none_of_lt (by omega)
  have stops : stop? config (system' (ideal system' start k)) =
      some (.diverged .nonFiniteBalance, 0) := by
    rw [same k le_rfl]
    exact stop?_of_nonFinite (broken _ harmful)
  rw [firstStop_of_stop bound going stops]
  rfl

/-- So is the answer of the second iteration if it starts where the first one does. -/
theorem outcome_answer_of_broken [Scalar.Propagates α] (positive : 1 ≤ config.maxIter)
    (harmless : Vec α n → Prop) (agree : ∀ b, harmless b → system' b = system b)
    (broken : ∀ b, ¬ harmless b → (system' b).balance.isFinite = false)
    (met : ∃ k < (answer config system start).iterations, ¬ harmless (ideal system start k)) :
    (answer config system' start).outcome = .diverged .nonFiniteBalance := by
  rw [answer] at met ⊢
  split
  case isTrue finite =>
    rw [if_pos finite] at met
    exact outcome_firstStop_of_broken positive harmless agree broken met
  case isFalse unstarted =>
    -- Nothing is evaluated.
    rw [if_neg unstarted] at met
    obtain ⟨k, evaluated, -⟩ := met
    exact absurd evaluated (Nat.not_lt_zero k)

end Newton

variable [Transcendental α] {f : Family α} {o : Observation α} {log : List (Observation α)}

namespace Family

/-- At the coefficients the mean of an observation differs from its response by a finite number. -/
def IsHarmless (f : Family α) (intercept : Bool) (o : Observation α) (beta : Vec α n) : Prop :=
  Scalar.isFinite (f.meanAt beta (Design.sample n intercept o) - o.y) = true

variable {intercept : Bool} {beta : Vec α n}

/-- If variances are finite wherever means are, an observation of weight zero leaves the system as
it is at all coefficients at which it is harmless. -/
theorem system_append_eq [Scalar.Propagates α] [Scalar.LawfulZero α] [Scalar.LawfulUnits α]
    (variances : ∀ eta, Scalar.isFinite (f.mean eta) = true →
      Scalar.isFinite (f.variance (f.mean eta)) = true)
    (x : ∀ a ∈ o.x, Scalar.isFinite a = true) (weight : o.weight = 0)
    (harmless : f.IsHarmless intercept o beta) :
    f.system ((log ++ [o]).map (Design.sample n intercept)) beta =
      f.system (log.map (Design.sample n intercept)) beta := by
  let s := Design.sample n intercept o
  have row : s.row.isFinite = true := Design.isFinite_row x
  have mean : Scalar.isFinite (f.meanAt beta s) = true := (Scalar.Propagates.of_sub harmless).1
  have residual : f.residual beta s = 0 := by
    change o.weight * (f.meanAt beta s - o.y) = 0
    rw [weight]
    exact Scalar.LawfulUnits.zero_mul_eq harmless
  have curvature : f.curvature beta s = 0 := by
    change o.weight * f.variance (f.meanAt beta s) = 0
    rw [weight]
    exact Scalar.LawfulUnits.zero_mul_eq (variances _ mean)
  rw [system, system, List.map_append, List.map_append, List.map_append]
  change System.mk (Design.moment (_ ++ [(s.row, f.residual beta s)]))
    (Design.gram (_ ++ [(s.row, f.curvature beta s)])) = _
  rw [residual, curvature, Design.moment_append_zero row, Design.gram_append_zero row]

end Family

namespace GeneralizedLinear

/-- An observation of weight zero whose link is finite leaves the normal equations as they are. -/
theorem normalEquations_append_eq [Scalar.LawfulZero α] [Scalar.LawfulUnits α]
    (x : ∀ a ∈ o.x, Scalar.isFinite a = true) (weight : o.weight = 0)
    (link : Scalar.isFinite (f.link o.y) = true) (p : Nat) :
    normalEquations f p (log ++ [o]) = normalEquations f p log := by
  let s := Design.sample p false (f.linked o)
  have row : s.row.isFinite = true := Design.isFinite_row x
  have side : s.weight * s.y = 0 := by
    change o.weight * f.link o.y = 0
    rw [weight]
    exact Scalar.LawfulUnits.zero_mul_eq link
  have coefficient : s.weight = 0 := weight
  rw [normalEquations, normalEquations, List.map_append, NormalEquations.ofSamples, List.map_append,
    List.map_append]
  change NormalEquations.mk (Design.gram (_ ++ [(s.row, s.weight)]))
    (Design.moment (_ ++ [(s.row, s.weight * s.y)])) = _
  rw [side, coefficient, Design.moment_append_zero row, Design.gram_append_zero row]
  rfl

variable [Scalar.Propagates α] [Scalar.LawfulZero α] [Scalar.LawfulUnits α] [LeastSquares α]
  {g : GeneralizedLinear α} {config : Config α} {store store' : Store α}
  {observer : Option (Observer σ α)} {o₀ : Observation α}

/-- **The result of a fit with an observation of weight zero.** If the link of its response is not
finite, the warm start fails. If there is an iterate of the fit without it at which it is not
harmless, the balance fails. Otherwise the results are equal. -/
theorem solve_append_weightless (family : g.family = some f) (accepted : config.accepted = true)
    (passive : ∀ o ∈ observer, o.Passive)
    (variances : ∀ eta, Scalar.isFinite (f.mean eta) = true →
      Scalar.isFinite (f.variance (f.mean eta)) = true)
    (member : o₀ ∈ store.log) (extended : store'.log = store.log ++ [o])
    (x : ∀ a ∈ o.x, Scalar.isFinite a = true) (weight : o.weight = 0) (u : σ) :
    let start := g.start f o₀.x.length store.log
    let system := g.ridgeSystem f config store.log
    ∃ r r' : FitResult (Vec α (g.dim o₀.x.length)) α,
      (Run.start u (Fitter.solve ⟨g.model.lift, config, store⟩ observer)).1 =
          (g.prepare config o₀.x.length).map (fun _ => r.map Vec.toList) ∧
        (Run.start u (Fitter.solve ⟨g.model.lift, config, store'⟩ observer)).1 =
          (g.prepare config o₀.x.length).map (fun _ => r'.map Vec.toList) ∧
        (Scalar.isFinite (f.link o.y) = false → r'.outcome = .diverged .nonFiniteWarmStart) ∧
        (Scalar.isFinite (f.link o.y) = true →
          (∃ k < r.iterations, ¬ f.IsHarmless g.intercept o (Newton.ideal system start k)) →
            r'.outcome = .diverged .nonFiniteBalance) ∧
        (Scalar.isFinite (f.link o.y) = true →
          (∀ k < r.iterations, f.IsHarmless g.intercept o (Newton.ideal system start k)) →
            r' = r) := by
  intro start system
  have member' : o₀ ∈ store'.log := by
    rw [extended]
    exact List.mem_append_left _ member
  have new : o ∈ store'.log := by
    rw [extended]
    exact List.mem_append_right _ (List.mem_singleton_self o)
  have length : o.x.length = o₀.x.length := Store.length_eq_of_mem new member'
  have nonempty : 1 ≤ o₀.x.length := (store.uniform o₀ member).1
  have positive : 1 ≤ config.maxIter := Config.one_le_maxIter accepted
  let start' := g.start f o₀.x.length store'.log
  let system' : Vec α (g.dim o₀.x.length) → System α (g.dim o₀.x.length) :=
    g.ridgeSystem f config store'.log
  -- The two systems agree where the observation is harmless; elsewhere the second one is spoilt.
  have agree (b : Vec α (g.dim o₀.x.length)) (harmless : f.IsHarmless g.intercept o b) :
      system' b = system b := by
    simp only [system', system, ridgeSystem, extended]
    rw [Family.system_append_eq variances x weight harmless]
  have broken (b : Vec α (g.dim o₀.x.length)) (harmful : ¬ f.IsHarmless g.intercept o b) :
      (system' b).balance.isFinite = false := by
    rw [← Bool.not_eq_true]
    intro finite
    have balance := (System.isFinite_of_regularize finite).1
    exact harmful (Family.isFinite_of_balance (Nat.add_pos_left nonempty _) balance new)
  have starts (link : Scalar.isFinite (f.link o.y) = true) : start' = start := by
    simp only [start', start, GeneralizedLinear.start, extended]
    rw [normalEquations_append_eq x weight link]
  refine ⟨Newton.answer config system start, Newton.answer config system' start', ?_, ?_, ?_, ?_, ?_⟩
  · exact start_solve_of_newton family member (Newton.start_newton accepted
      (computes family ⟨_, Store.columns?_of_mem member, rfl⟩) passive start u)
  · exact start_solve_of_newton family member' (Newton.start_newton accepted
      (computes family ⟨_, Store.columns?_of_mem member', rfl⟩) passive start' u)
  · intro link
    have unstarted : ¬ start'.isFinite = true := fun finite =>
      Bool.false_ne_true (link.symm.trans (isFinite_of_start finite new length nonempty).2.2)
    rw [Newton.answer, if_neg unstarted]
    rfl
  · intro link met
    rw [starts link]
    exact Newton.outcome_answer_of_broken positive _ agree broken met
  · intro link harmless
    rw [starts link]
    exact Newton.answer_congr positive fun i evaluated => agree _ (harmless i evaluated)

/-- A second observation whose weight is zero and whose mean is four makes no difference to a
Poisson regression. -/
theorem solve_append_weightless_harmless :
    let _ : LeastSquares Ranged := .regular
    let g : GeneralizedLinear Ranged := ⟨some .poisson, false⟩
    let config : Config Ranged := ⟨0, 0, 0, 0, 5, .level 0, false⟩
    let store : Store Ranged := .ofLog 1 [⟨[1], 1 + 1, 1⟩] (by simp)
    let store' : Store Ranged := .ofLog 1 [⟨[1], 1 + 1, 1⟩, ⟨[1 + 1], 1, 0⟩] (by simp)
    (Run.start () (Fitter.solve ⟨g.model.lift, config, store'⟩ none)).1 =
      (Run.start () (Fitter.solve ⟨g.model.lift, config, store⟩ none)).1 := by
  intro _ g config store store'
  let o₀ : Observation Ranged := ⟨[1], 1 + 1, 1⟩
  let o : Observation Ranged := ⟨[1 + 1], 1, 0⟩
  have accepted : config.accepted = true := by decide +kernel
  have member : o₀ ∈ store.log := List.mem_singleton_self o₀
  have extended : store'.log = store.log ++ [o] := rfl
  have finite : ∀ a ∈ o.x, Scalar.isFinite a = true := by decide +kernel
  obtain ⟨r, r', alone, together, -, -, same⟩ :=
    solve_append_weightless (g := g) rfl accepted (Observer.passive_of_none (σ := Unit))
      (fun _ mean => mean) member extended finite rfl ()
  have prepared : g.prepare config o₀.x.length = .ok () :=
    prepare_of_room config (room_of_le (by decide))
  have ran : (Run.start () (Fitter.solve ⟨g.model.lift, config, store⟩ none)).1 =
      .ok ⟨.converged, [1], 1, 0, none⟩ := by decide +kernel
  have result : r.map Vec.toList = ⟨.converged, [1], 1, 0, none⟩ := by
    rw [alone, prepared] at ran
    exact Except.ok.inj ran
  -- The fit evaluates the start alone, where the mean of the other observation is four.
  have equal : r' = r := by
    refine same (by decide +kernel) fun k evaluated => ?_
    have once : r.iterations = 1 := congrArg FitResult.iterations result
    obtain rfl : k = 0 := by omega
    change Scalar.isFinite _ = true
    decide +kernel
  rw [together, alone, equal]

/-- The mean of a second observation whose weight is zero overflows, and a Poisson regression that
converges without it diverges with it. -/
theorem solve_append_weightless_overflow :
    let _ : LeastSquares Ranged := .regular
    let g : GeneralizedLinear Ranged := ⟨some .poisson, false⟩
    let config : Config Ranged := ⟨0, 0, 0, 0, 5, .level 0, false⟩
    let store : Store Ranged := .ofLog 1 [⟨[1], 1 + 1, 1⟩] (by simp)
    let o : Observation Ranged := ⟨[(1024 : Nat)], 1, 0⟩
    let store' : Store Ranged := .ofLog 1 [⟨[1], 1 + 1, 1⟩, o] (by simp [o])
    config.accepted = true ∧ (∀ o ∈ store'.log, o.IsFinite) ∧ store'.log = store.log ++ [o] ∧
      o.weight = 0 ∧
      (Run.start () (Fitter.solve ⟨g.model.lift, config, store⟩ none)).1 =
        .ok ⟨.converged, [1], 1, 0, none⟩ ∧
      (Run.start () (Fitter.solve ⟨g.model.lift, config, store'⟩ none)).1 =
        .ok ⟨.diverged .nonFiniteBalance, [1], 1, .nan, none⟩ := by
  intro _ g config store o store'
  refine ⟨by decide +kernel, ?_, rfl, rfl, by decide +kernel, by decide +kernel⟩
  simp only [Observation.IsFinite]
  decide +kernel

end GeneralizedLinear

end BalanceFit
