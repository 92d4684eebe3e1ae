import BalanceFit.Proofs.Fitter.NoiseFree
import BalanceFit.Proofs.Fitter.Symmetry

/-!
# Exchanged labels in logistic regression

The two labels of logistic regression are zero and one. If they are exchanged in all observations,
then every coefficient of a fit changes its sign and nothing else changes. The responses need not be
labels: each is replaced by one less itself.

The linked responses change their signs, since the link clips at both ends alike. So the warm start
does, and from there on the means at the two iterates add up to one, which gives the opposite
balance and the same Jacobian.

## Main definitions

* `Observation.relabeled` : the observation with the other label
* `SignedPerm.negation` : another sign for every entry

## Main statements

* `Family.link_relabeled` : the link takes the other label to the opposite predictor
* `Family.system_relabeled` : the systems of logistic regression
* `GeneralizedLinear.solve_relabeled` : the result of a fit
-/

namespace BalanceFit

open Matrix

variable {K : Type} [Field K] {n p : Nat}

/-- The observation with the other label. -/
def Observation.relabeled (o : Observation K) : Observation K := { o with y := 1 - o.y }

/-- The sample with the other label. -/
def Sample.relabeled (s : Sample K n) : Sample K n := { s with y := 1 - s.y }

/-- Another sign for every entry. -/
def SignedPerm.negation (n : Nat) : SignedPerm n := ⟨1, fun _ => -1⟩

namespace SignedPerm

theorem factor_negation (i : Fin n) : (negation n).factor i = (-1 : K) := by
  simp [factor, negation]

@[simp] theorem negation_apply (v : Vec K n) (i : Fin n) : (negation n).apply v i = -v i := by
  rw [apply_apply, factor_negation, neg_one_mul]
  rfl

theorem toList_negation (v : Vec K n) :
    ((negation n).apply v).toList = v.toList.map fun x => -x := by
  rw [Vec.toList_eq_ofFn, Vec.toList_eq_ofFn, List.map_ofFn]
  simp only [negation_apply, Function.comp_def]

/-- Padding adds zeros, which have no sign. -/
theorem negation_ofListPadded (l : List K) :
    (negation n).apply (.ofListPadded n l) = .ofListPadded n (l.map fun x => -x) := by
  ext i
  rw [negation_apply, Vec.ofListPadded_apply, Vec.ofListPadded_apply,
    List.getD_eq_getElem?_getD, List.getD_eq_getElem?_getD, List.getElem?_map]
  cases l[(i : Nat)]? with
  | none => exact neg_zero
  | some x => rfl

/-- A Jacobian meets the signs twice. -/
theorem transformed_negation (a : Mat K n n) : a.transformed ((negation n).matrix K) = a := by
  ext i j
  rw [transformed_entry, factor_negation, factor_negation, neg_mul_neg, one_mul, one_mul]
  rfl

end SignedPerm

variable [LinearOrder K]

/-- Opposite coefficients give the opposite sum of rows. -/
theorem Design.moment_neg (terms : List (Vec K n × K)) :
    moment (terms.map fun t => (t.1, -t.2)) = (SignedPerm.negation n).apply (moment terms) := by
  ext i
  rw [SignedPerm.negation_apply, moment_apply, moment_apply, total_eq_sum, total_eq_sum,
    List.sum_neg, List.map_map, List.map_map]
  exact congrArg List.sum (List.map_congr_left fun t _ => mul_neg _ _)

theorem NormalEquations.ofSamples_neg (samples : List (Sample K n)) :
    ofSamples (samples.map fun s => { s with y := -s.y }) =
      (ofSamples samples).transformed ((SignedPerm.negation n).matrix K) := by
  rw [ofSamples, ofSamples, transformed, SignedPerm.transformed_negation,
    SignedPerm.transformed_matrix, ← Design.moment_neg]
  simp only [List.map_map, Function.comp_def, mul_neg]

namespace Family

theorem larger_eq_max (x y : K) : larger x y = max x y := by
  rw [larger, max_def']
  by_cases less : x < y
  · simp [less, less.not_ge]
  · simp [less, not_lt.1 less]

theorem smaller_eq_min (x y : K) : smaller x y = min x y := by
  rw [smaller, min_def]
  by_cases less : y < x
  · simp [less, less.not_ge]
  · simp [less, not_lt.1 less]

section Evaluation

variable [Transcendental K] {clip : K}

/-- **The systems of logistic regression.** At the opposite coefficients the mean of a response is
that of the other label, which gives the opposite balance and the same Jacobian. -/
theorem system_relabeled
    (expit_neg : ∀ t : K, Transcendental.expit (-t) = 1 - Transcendental.expit t)
    (samples : List (Sample K n)) (b : Vec K n) :
    (logistic clip).system (samples.map Sample.relabeled) ((SignedPerm.negation n).apply b) =
      ((logistic clip).system samples b).transformed ((SignedPerm.negation n).matrix K) := by
  let f : Family K := logistic clip
  let b' := (SignedPerm.negation n).apply b
  -- The means of a response and of the other label add up to one, and so do the labels.
  have predictor (x : Vec K n) : x.dot b' = -x.dot b := by
    rw [Vec.dot_eq_sum, Vec.dot_eq_sum, ← Finset.sum_neg_distrib]
    exact Finset.sum_congr rfl fun i _ => by rw [SignedPerm.negation_apply, mul_neg]
  have mean (s : Sample K n) : f.meanAt b' s.relabeled = 1 - f.meanAt b s := by
    change Transcendental.expit (s.row.dot b') = 1 - Transcendental.expit (s.row.dot b)
    rw [predictor, expit_neg]
  have residual (s : Sample K n) : f.residual b' s.relabeled = -f.residual b s := by
    rw [Family.residual, Family.residual, mean]
    change s.weight * (1 - f.meanAt b s - (1 - s.y)) = -(s.weight * (f.meanAt b s - s.y))
    ring
  have curvature (s : Sample K n) : f.curvature b' s.relabeled = f.curvature b s := by
    rw [Family.curvature, Family.curvature, mean]
    change s.weight * ((1 - f.meanAt b s) * (1 - (1 - f.meanAt b s))) =
      s.weight * (f.meanAt b s * (1 - f.meanAt b s))
    ring
  rw [system, system, System.transformed, SignedPerm.transformed_negation,
    SignedPerm.transformed_matrix, ← Design.moment_neg]
  simp only [List.map_map]
  refine congrArg₂ System.mk (congrArg Design.moment (List.map_congr_left fun s _ => ?_))
    (congrArg Design.gram (List.map_congr_left fun s _ => ?_))
  · exact congrArg (s.row, ·) (residual s)
  · exact congrArg (s.row, ·) (curvature s)

end Evaluation

variable [IsStrictOrderedRing K] {clip : K}

/-- Both ends are clipped alike. -/
theorem clipped_relabeled (narrow : clip ≤ 1 - clip) (y : K) :
    smaller (larger (1 - y) clip) (1 - clip) = 1 - smaller (larger y clip) (1 - clip) := by
  rw [larger_eq_max, larger_eq_max, smaller_eq_min, smaller_eq_min]
  -- It makes no difference which of the two ends a response is held against first.
  calc
    min (max (1 - y) clip) (1 - clip) = min (max (1 - y) clip) (max (1 - clip) clip) := by
      rw [max_eq_left narrow]
    _ = max (min (1 - y) (1 - clip)) clip := (max_min_distrib_right _ _ _).symm
    _ = max (1 - max y clip) (1 - (1 - clip)) := by rw [min_sub_sub_left, sub_sub_cancel]
    _ = 1 - min (max y clip) (1 - clip) := max_sub_sub_left _ _ _

/-- **The link takes the other label to the opposite predictor.** -/
theorem link_relabeled [Transcendental K] (narrow : clip ≤ 1 - clip)
    (logit_sub : ∀ t : K, Transcendental.logit (1 - t) = -Transcendental.logit t) (y : K) :
    (logistic clip).link (1 - y) = -(logistic clip).link y := by
  rw [link, link, clipped_relabeled narrow, logit_sub]

/-- The default clip is narrow enough. -/
theorem defaultClip_le_one_sub : (defaultClip : K) ≤ 1 - defaultClip := by
  rw [defaultClip, Nat.cast_ofNat, le_sub_iff_add_le]
  norm_num

/-- The exact inverse of the logistic function has the symmetry. -/
theorem logit_one_sub (t : ℝ) : Transcendental.logit (1 - t) = -Transcendental.logit t := by
  change Real.log ((1 - t) / (1 - (1 - t))) = -Real.log (t / (1 - t))
  rw [sub_sub_cancel, ← Real.log_inv, inv_div]

end Family

namespace GeneralizedLinear

open Newton

variable {σ : Type} [Transcendental K] {g : GeneralizedLinear K} {clip : K} {config : Config K}
  {store store' : Store K} {observer : Option (Observer σ K)} {o : Observation K}

theorem ridgeSystem_relabeled
    (expit_neg : ∀ t : K, Transcendental.expit (-t) = 1 - Transcendental.expit t)
    (log : List (Observation K)) (b : Vec K n) :
    g.ridgeSystem (.logistic clip) config (log.map Observation.relabeled)
        ((SignedPerm.negation n).apply b) =
      (g.ridgeSystem (.logistic clip) config log b).transformed
        ((SignedPerm.negation n).matrix K) := by
  have samples : (log.map Observation.relabeled).map (Design.sample n g.intercept) =
      (log.map (Design.sample n g.intercept)).map Sample.relabeled := by
    rw [List.map_map, List.map_map]
    rfl
  rw [ridgeSystem, ridgeSystem, samples, Family.system_relabeled expit_neg,
    ← System.regularize_transformed (SignedPerm.negation n).matrix_mul_transpose,
    SignedPerm.transformed_matrix]

variable [IsStrictOrderedRing K] [LeastSquares K] [LeastSquares.Lawful K]

theorem start_relabeled (narrow : clip ≤ 1 - clip)
    (logit_sub : ∀ t : K, Transcendental.logit (1 - t) = -Transcendental.logit t)
    (log : List (Observation K)) :
    g.start (.logistic clip) p (log.map Observation.relabeled) =
      (SignedPerm.negation (g.dim p)).apply (g.start (.logistic clip) p log) := by
  -- The matrix of the normal equations does not depend on responses, and the side changes sign.
  have equations : normalEquations (.logistic clip) p (log.map Observation.relabeled) =
      (normalEquations (.logistic clip) p log).transformed ((SignedPerm.negation p).matrix K) := by
    rw [normalEquations, normalEquations, ← NormalEquations.ofSamples_neg, List.map_map,
      List.map_map]
    refine congrArg NormalEquations.ofSamples (List.map_congr_left fun o _ => ?_)
    exact congrArg (Sample.mk _ · o.weight) (Family.link_relabeled narrow logit_sub o.y)
  have solution : (normalEquations (.logistic clip) p (log.map Observation.relabeled)).solution =
      (SignedPerm.negation p).apply (normalEquations (.logistic clip) p log).solution := by
    rw [equations, NormalEquations.solution_transformed
      (mul_eq_one_comm.1 (SignedPerm.negation p).matrix_mul_transpose),
      SignedPerm.transformed_matrix]
  rw [start, start, solution, SignedPerm.toList_negation, SignedPerm.negation_ofListPadded]

/-- **Exchanged labels give opposite coefficients.** A fit of logistic regression has a result
unless something keeps it from its iteration. If every response is replaced by one less itself, then
the coefficients of the result and of its history change their signs, and the result is the same in
all other respects. Of the logistic function and of its inverse no more is asked than that they have
this symmetry, and of the clip that it is one half at most. -/
theorem solve_relabeled (family : g.family = some (.logistic clip)) (narrow : clip ≤ 1 - clip)
    (expit_neg : ∀ t : K, Transcendental.expit (-t) = 1 - Transcendental.expit t)
    (logit_sub : ∀ t : K, Transcendental.logit (1 - t) = -Transcendental.logit t)
    (accepted : config.accepted = true) (passive : ∀ o ∈ observer, o.Passive)
    (member : o ∈ store.log) (log : store'.log = store.log.map Observation.relabeled) (u : σ) :
    ∃ r : FitResult (List K) K,
      (Run.start u (Fitter.solve ⟨g.model.lift, config, store⟩ observer)).1 =
        (g.prepare config o.x.length).map (fun _ => r) ∧
      (Run.start u (Fitter.solve ⟨g.model.lift, config, store'⟩ observer)).1 =
        (g.prepare config o.x.length).map (fun _ => r.map (List.map fun b => -b)) := by
  let π := SignedPerm.negation (g.dim o.x.length)
  have member' : o.relabeled ∈ store'.log := by
    rw [log]
    exact List.mem_map_of_mem member
  have corresponding (b : Vec K (g.dim o.x.length)) :
      g.ridgeSystem (.logistic clip) config store'.log (π.apply b) =
        (g.ridgeSystem (.logistic clip) config store.log b).transformed (π.matrix K) := by
    rw [log]
    exact ridgeSystem_relabeled expit_neg store.log b
  have start : g.start (.logistic clip) o.x.length store'.log =
      π.apply (g.start (.logistic clip) o.x.length store.log) := by
    rw [log]
    exact start_relabeled narrow logit_sub store.log
  refine ⟨_, solve_eq_firstStop family accepted passive member u, ?_⟩
  have fitted : (Run.start u (Fitter.solve ⟨g.model.lift, config, store'⟩ observer)).1 =
      (g.prepare config o.x.length).map fun _ =>
        (firstStop config (g.ridgeSystem (.logistic clip) config store'.log)
          (g.start (.logistic clip) o.x.length store'.log)).map Vec.toList :=
    solve_eq_firstStop family accepted passive member' u
  rw [fitted, start, firstStop_transformed π corresponding, FitResult.map_map, FitResult.map_map]
  have lists : Vec.toList ∘ π.apply = (List.map fun b => -b) ∘ (Vec.toList : Vec K _ → List K) :=
    funext SignedPerm.toList_negation
  rw [lists]

/-- For a single observation with the predictor one the start is its linked response. -/
theorem start_single (f : Family K) {y weight : K} (positive : 0 < weight) (i : Fin 1) :
    (⟨some f, false⟩ : GeneralizedLinear K).start f 1 [⟨[1], y, weight⟩] i = f.link y := by
  have product (v : Fin 1 → K) : Design.product (Design.row 1 false [1]) v = v 0 := by
    simp [Design.product, Design.row]
  let o : Observation K := ⟨[1], y, weight⟩
  have nonneg : ∀ o' ∈ [o], 0 ≤ o'.weight := List.forall_mem_singleton.2 positive.le
  have least := isLeastNorm_start f nonneg 1
  have fitted := Design.product_eq_of_squares_le (List.forall_mem_singleton.2 positive)
    (List.forall_mem_singleton.2 (product fun _ => f.link y)) (least.least fun _ => f.link y)
    (List.mem_singleton_self (Design.sample 1 false (f.linked o)))
  rw [Subsingleton.elim i 0]
  exact (product _).symm.trans fitted

omit [Field K] [LinearOrder K] [IsStrictOrderedRing K] [Transcendental K] [LeastSquares K]
  [LeastSquares.Lawful K] in
/-- A response of three is clipped. Its mean at the start is the upper end, and the balance two and
one hundredth below zero, which the threshold lets pass. The other label of three is minus two. -/
theorem solve_relabeled_clipped :
    let _ : LeastSquares ℝ := .exact ℝ
    let g : GeneralizedLinear ℝ := ⟨some (.logistic Family.defaultClip), false⟩
    let config : Config ℝ := ⟨0, 3, 0, 0, 1, .level 0, true⟩
    let store : Store ℝ := .ofLog 1 [⟨[1], 3, 1⟩] (by simp)
    let store' : Store ℝ := .ofLog 1 [⟨[1], -2, 1⟩] (by simp)
    let fit (store : Store ℝ) :=
      (Run.start () (Fitter.solve ⟨g.model.lift, config, store⟩ (some Observer.idle))).1
    fit store = .ok ⟨.converged, [Real.log 99], 1, 201 / 100, some [[Real.log 99]]⟩ ∧
      fit store' = .ok ⟨.converged, [-Real.log 99], 1, 201 / 100, some [[-Real.log 99]]⟩ := by
  intro _ g config store store' fit
  have := LeastSquares.lawful_exact (K := ℝ)
  let f : Family ℝ := .logistic Family.defaultClip
  let o : Observation ℝ := ⟨[1], 3, 1⟩
  have accepted : config.accepted = true := by
    simp [config, Config.accepted]
  have member : o ∈ store.log := List.mem_singleton_self o
  have prepared : g.prepare config 1 = .ok () := prepare_of_room config (room_of_le (by decide))
  have linked : f.link 3 = Real.log 99 := by
    have clipped : Family.smaller (Family.larger 3 Family.defaultClip) (1 - Family.defaultClip) =
        (99 / 100 : ℝ) := by
      rw [Family.larger_eq_max, Family.smaller_eq_min]
      norm_num [Family.defaultClip]
    change Real.log (Family.smaller _ _ / (1 - Family.smaller _ _)) = Real.log 99
    rw [clipped]
    norm_num
  let b : Vec ℝ 1 := g.start f 1 store.log
  have entry : b 0 = Real.log 99 := (start_single f one_pos 0).trans linked
  have list : b.toList = [Real.log 99] := by
    simp [Vec.toList_eq_ofFn, entry]
  have mean : f.meanAt b (Design.sample 1 false o) = 99 / 100 := by
    have predictor : (Design.row 1 false [1]).dot b = Real.log 99 := by
      rw [Vec.dot_eq_sum, ← entry]
      simp [Design.row]
    change Real.sigmoid ((Design.row 1 false [1]).dot b) = 99 / 100
    rw [predictor, Real.sigmoid_def, Real.exp_neg, Real.exp_log (by norm_num)]
    norm_num
  have total : (g.ridgeSystem f config store.log b).balance.absTotal = 201 / 100 := by
    have balance : (g.ridgeSystem f config store.log b).balance 0 = -201 / 100 := by
      rw [ridgeSystem, System.regularize_balance_apply, Family.system, Design.moment_apply]
      change 0 + Design.row 1 false [1] 0 * (1 * (f.meanAt b _ - 3)) + _ * 0 * b 0 = -201 / 100
      rw [mean]
      norm_num [Design.row]
    rw [Vec.absTotal_eq_sum]
    refine (Fin.sum_univ_one _).trans ?_
    rw [balance]
    norm_num [abs_div]
  have fitted :
      fit store = .ok ⟨.converged, [Real.log 99], 1, 201 / 100, some [[Real.log 99]]⟩ := by
    have small : (g.ridgeSystem f config store.log b).balance.absTotal ≤ config.balanceTol := by
      rw [total]
      norm_num [config]
    have stopped := firstStop_of_balanced accepted small
    rw [total, list] at stopped
    refine (solve_eq_firstStop (g := g) rfl accepted Observer.passive_idle member ()).trans ?_
    change (g.prepare config 1).map _ = _
    rw [prepared]
    exact congrArg Except.ok stopped
  have log : store'.log = store.log.map Observation.relabeled := by
    norm_num [store, store', Store.ofLog, Observation.relabeled]
  obtain ⟨r, before, after⟩ := solve_relabeled (g := g) rfl Family.defaultClip_le_one_sub
    Real.sigmoid_neg Family.logit_one_sub accepted Observer.passive_idle member log ()
  change _ = (g.prepare config 1).map _ at before after
  rw [prepared] at before after
  have result : r = _ := Except.ok.inj (before.symm.trans fitted)
  rw [result] at after
  exact ⟨fitted, after⟩

end GeneralizedLinear

end BalanceFit
