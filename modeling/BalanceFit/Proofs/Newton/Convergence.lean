import BalanceFit.Proofs.Newton.Breakdown

/-!
# What a convergence returns

An iteration that converges has a finite balance in total. If it was stopped by the balance, the
coefficients that it returns are those that were evaluated last, and the ridge, whatever its
strength, vouches for them. If it was stopped by a short step, it returns the difference of finite
coefficients and a finite step, which no test is put to. Under a large tolerance for steps this
difference can overflow.

## Main statements

* `Newton.beta_of_converged` : the coefficients that a convergence returns, for both stops
* `Newton.beta_of_converged_overflow` : a convergence to coefficients that are not finite
-/

namespace BalanceFit.Newton

open Run

variable {α σ : Type} [Scalar α] [Scalar.Propagates α] {n : Nat} {model : Model (Act σ) α}
  {store : Store α} {config : Config α} {observer : Option (Observer σ α)} {start : Vec α n} {u : σ}

/-- **What a convergence returns.** An iteration whose observer only looks, and that converges, has
evaluated finite coefficients last, with a finite balance whose total it returns. Either this total
is within the tolerance, and it returns the same coefficients; or it returns these coefficients less
a finite step that is within the tolerance for steps. So only an overflow of this difference can
make the coefficients that it returns infinite. -/
theorem beta_of_converged (looks : ∀ o ∈ observer, o.LooksOnly) {r : FitResult (Vec α n) α}
    (returned : (Run.start u (newton model store config observer start)).1 = .ok r)
    (converged : r.outcome = .converged) :
    Scalar.isFinite r.absBalance = true ∧ ∃ b s,
      Evaluated model store config observer start u r.iterations b s ∧
        b.isFinite = true ∧ r.absBalance = s.balance.absTotal ∧
        (Scalar.le r.absBalance config.balanceTol = true ∧ r.beta = b ∨
          ∃ delta, assess config s = .ok (.step delta) ∧ delta.isFinite = true ∧
            Scalar.le delta.absTotal config.stepTol = true ∧ r.beta = Vec.zipWith (· - ·) b delta ∧
              (r.beta.isFinite = false → ∃ i, Scalar.isFinite (b i - delta i) = false)) := by
  have finite : start.isFinite = true := by
    -- From any other start the iteration diverges at once.
    by_contra broken
    rw [newton, if_neg broken] at returned
    cases returned
    cases converged
  obtain ⟨w', returned⟩ := Run.start_eq_ok_iff.1 returned
  cases concluded_of_newton finite returned with
  | exhausted _ result =>
    rw [result] at converged
    cases converged
  | @stopped p w w' beta s outcome here visited assessed result =>
    subst result
    obtain rfl : outcome = .converged := converged
    obtain ⟨rfl, -⟩ := visit_eq_of_looksOnly looks visited
    have evaluated : Evaluated model store config observer start u (p.evaluations + 1) p.beta s :=
      ⟨p, w, w', here, rfl, rfl, visited⟩
    cases assessed_of_assess assessed with
    | balanced balanced within =>
      exact ⟨balanced, p.beta, s, evaluated, isFinite_of_evaluated looks evaluated balanced, rfl,
        .inl ⟨within, rfl⟩⟩
  | @shortStep p w w' beta delta s here visited assessed short result =>
    subst result
    obtain ⟨rfl, -⟩ := visit_eq_of_looksOnly looks visited
    have evaluated : Evaluated model store config observer start u (p.evaluations + 1) p.beta s :=
      ⟨p, w, w', here, rfl, rfl, visited⟩
    have balanced : Scalar.isFinite s.balance.absTotal = true :=
      isFinite_of_assess assessed fun same => by cases same
    refine ⟨balanced, p.beta, s, evaluated, isFinite_of_evaluated looks evaluated balanced, rfl,
      .inr ⟨delta, assessed, isFinite_of_step assessed, short, rfl, fun broken => ?_⟩⟩
    -- A vector whose entries are all finite is finite.
    by_contra nowhere
    push Not at nowhere
    refine Bool.false_ne_true (broken.symm.trans (Vec.isFinite_iff.2 fun i => ?_))
    rw [Progress.result, Progress.stepped, Vec.zipWith_apply]
    exact Bool.eq_true_of_not_eq_false (nowhere i)

section Overflow

/-- Half of the limit of the numbers. -/
def halfLimit : Ranged := .ofRat (Ranged.limit / 2)

/-- A model whose balance is the same everywhere, and whose Jacobian claims a slope of one. -/
def steadyModel : Model (Act Unit) Ranged where
  name := "SteadyModel"
  dim? := none
  link? := none
  evaluate? := some fun n _ _ _ => pure {
    balance := .replicate n (0 - halfLimit)
    jacobian := Mat.ofFn fun i j => if i = j then 1 else 0 }

/-- A tolerance for steps as large as the steps of this model. -/
def tolerantConfig : Config Ranged := ⟨0, 0, 0, halfLimit, 5, .level 0, false⟩

/-- A single coefficient, half way to the limit. -/
def halfway : Vec Ranged 1 := .replicate 1 halfLimit

/-- From half way to the limit the step leads to the limit, where numbers overflow. It is short
enough for the tolerance, so the iteration converges there. -/
theorem beta_of_converged_overflow :
    tolerantConfig.accepted = true ∧ halfway.isFinite = true ∧
      (Run.start () (newton steadyModel (.empty none) tolerantConfig none halfway)).1 =
        .ok ⟨.converged, .replicate 1 (.infinity false), 1, halfLimit, none⟩ ∧
      (Vec.replicate 1 (Ranged.infinity false)).isFinite = false := by
  decide +kernel

/-- It evaluated the coefficient half way to the limit and stopped after a short step from there. -/
theorem beta_of_converged_step :
    ∃ b s delta, Evaluated steadyModel (.empty none) tolerantConfig none halfway () 1 b s ∧
      b.isFinite = true ∧ assess tolerantConfig s = .ok (.step delta) ∧ delta.isFinite = true ∧
        Vec.replicate 1 (Ranged.infinity false) = Vec.zipWith (· - ·) b delta := by
  let r : FitResult (Vec Ranged 1) Ranged :=
    ⟨.converged, .replicate 1 (.infinity false), 1, halfLimit, none⟩
  have returned : (Run.start () (newton steadyModel (.empty none) tolerantConfig none halfway)).1 =
      .ok r := by
    decide +kernel
  have looks (o : Observer Unit Ranged) (member : o ∈ none) : o.LooksOnly :=
    Observer.Passive.looksOnly (Observer.passive_of_none o member)
  have above : ¬ Scalar.le halfLimit tolerantConfig.balanceTol = true := by
    decide +kernel
  obtain ⟨-, b, s, evaluated, finite, -, ⟨within, -⟩ | step⟩ := beta_of_converged looks returned rfl
  · exact absurd within above
  · obtain ⟨delta, assessed, solved, -, beta, -⟩ := step
    exact ⟨b, s, delta, evaluated, finite, assessed, solved, beta⟩

end Overflow

end BalanceFit.Newton
