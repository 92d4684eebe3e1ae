import BalanceFit.Proofs.Model.Evaluation
import BalanceFit.Proofs.Newton.Assess
import BalanceFit.Proofs.Scalar.Ranged

/-!
# What a divergence returns

An iteration that diverges returns the coefficients that were evaluated last. If the Jacobian is
degenerate, or the linear system has no finite solution, the balance at these coefficients was
finite. But a step can lead to coefficients at which the model overflows. Then these coefficients
are returned, and not those before the step, which were the last ones with a finite balance.

## Main statements

* `Newton.isFinite_of_evaluated` : where a balance is finite, so are the coefficients
* `Newton.beta_of_diverged` : the coefficients that a divergence returns, for every reason
* `Newton.beta_of_diverged_overflow` : a divergence whose coefficients have no finite balance
-/

namespace BalanceFit

variable {α σ : Type} [Scalar α] {n : Nat}

namespace Newton

open Run

variable {model : Model (Act σ) α} {store : Store α} {config : Config α}
  {observer : Option (Observer σ α)} {start : Vec α n} {u : σ} {s : System α n}

variable [Scalar.Propagates α]

/-- If the observer only looks and a balance is finite, then so are the coefficients that it was
evaluated at. -/
theorem isFinite_of_evaluated (looks : ∀ o ∈ observer, o.LooksOnly) {number : Nat} {b : Vec α n}
    (evaluated : Evaluated model store config observer start u number b s)
    (finite : Scalar.isFinite s.balance.absTotal = true) : b.isFinite = true := by
  obtain ⟨p, w, w', -, -, -, visited⟩ := evaluated
  obtain ⟨-, t, u, u', -, rfl⟩ := visit_eq_of_looksOnly looks visited
  exact (System.isFinite_of_regularize (Vec.isFinite_of_absTotal finite)).2

/-- **What a divergence returns.** An iteration from finite coefficients, whose observer only looks,
returns the coefficients of its last evaluation if it diverges. Unless its reason is the balance,
coefficients and balance there are finite. If the reason is the balance, then it is not finite
there, and either no step has been taken or one step leads there from the last coefficients at which
the balance was finite. -/
theorem beta_of_diverged (looks : ∀ o ∈ observer, o.LooksOnly) (finite : start.isFinite = true)
    {r : FitResult (Vec α n) α} {reason : Divergence}
    (returned : (Run.start u (newton model store config observer start)).1 = .ok r)
    (diverged : r.outcome = .diverged reason) :
    ∃ s, Evaluated model store config observer start u r.iterations r.beta s ∧
      r.absBalance = s.balance.absTotal ∧
      (reason ≠ .nonFiniteBalance →
        r.beta.isFinite = true ∧ Scalar.isFinite s.balance.absTotal = true) ∧
      (reason = .nonFiniteBalance →
        Scalar.isFinite s.balance.absTotal = false ∧
          (r.iterations = 1 ∧ r.beta = start ∨ ∃ b s' delta,
            Evaluated model store config observer start u (r.iterations - 1) b s' ∧
              b.isFinite = true ∧ Scalar.isFinite s'.balance.absTotal = true ∧
                assess config s' = .ok (.step delta) ∧
                  r.beta = Vec.zipWith (· - ·) b delta)) := by
  obtain ⟨w', returned⟩ := Run.start_eq_ok_iff.1 returned
  cases concluded_of_newton finite returned with
  | shortStep _ _ _ _ result =>
    rw [result] at diverged
    cases diverged
  | exhausted _ result =>
    rw [result] at diverged
    cases diverged
  | @stopped p w w' beta s outcome here visited assessed result =>
    subst result
    obtain rfl : outcome = .diverged reason := diverged
    obtain ⟨rfl, -⟩ := visit_eq_of_looksOnly looks visited
    have evaluated : Evaluated model store config observer start u (p.evaluations + 1) p.beta s :=
      ⟨p, w, w', here, rfl, rfl, visited⟩
    refine ⟨s, evaluated, rfl, fun other => ?_, fun same => ⟨?_, ?_⟩⟩
    · have balanced : Scalar.isFinite s.balance.absTotal = true := by
        refine isFinite_of_assess assessed fun same => ?_
        cases same
        exact other rfl
      exact ⟨isFinite_of_evaluated looks evaluated balanced, balanced⟩
    · rw [← Bool.not_eq_true]
      exact fun balanced => reason_ne_of_isFinite balanced assessed same
    · rcases evaluated.eq_start_or_step looks with first | ⟨b, s', delta, before, stepped, next⟩
      · exact .inl first
      · -- A step is asked for only at a finite balance.
        have balanced : Scalar.isFinite s'.balance.absTotal = true :=
          isFinite_of_assess stepped nofun
        exact .inr ⟨b, s', delta, before, isFinite_of_evaluated looks before balanced, balanced,
          stepped, next⟩

section Overflow

/-- Poisson regression without an intercept. -/
def countModel : Model (Act Unit) Ranged :=
  (GeneralizedLinear.model ⟨some .poisson, false⟩).lift

/-- One observation, whose response is one. -/
def oneCount : Store Ranged := .push (.empty none) ⟨[1], 1, 1⟩ (by simp) nofun

/-- No ridge, tolerances of zero, at most five evaluations, and all iterates kept. -/
def plainConfig : Config Ranged := ⟨0, 0, 0, 0, 5, .level 0, true⟩

/-- A single coefficient, which is a whole number. -/
def coefficient (z : Int) : Vec Ranged 1 := .replicate 1 (.ofRat z)

/-- From minus twenty, where the mean is almost zero, the iteration steps far to the right and
diverges there. The step is the one from its first evaluation. -/
theorem beta_of_diverged_step :
    ∃ b s delta, Evaluated countModel oneCount plainConfig none (coefficient (-20)) () 1 b s ∧
      b.isFinite = true ∧ Scalar.isFinite s.balance.absTotal = true ∧
        assess plainConfig s = .ok (.step delta) ∧
          coefficient 1048555 = Vec.zipWith (· - ·) b delta := by
  let r : FitResult (Vec Ranged 1) Ranged :=
    ⟨.diverged .nonFiniteBalance, coefficient 1048555, 2, .infinity false,
      some [coefficient (-20), coefficient 1048555]⟩
  have returned : (Run.start () (newton countModel oneCount plainConfig none
      (coefficient (-20)))).1 = .ok r := by decide +kernel
  have finite : (coefficient (-20)).isFinite = true := by decide +kernel
  have looks (o : Observer Unit Ranged) (member : o ∈ none) : o.LooksOnly :=
    Observer.Passive.looksOnly (Observer.passive_of_none o member)
  obtain ⟨_, -, -, -, ended⟩ := beta_of_diverged looks finite returned rfl
  obtain ⟨-, ⟨first, -⟩ | step⟩ := ended rfl
  · cases first
  · exact step

/-- The coefficients that it returns have no finite balance, although those that it started from
have. -/
theorem beta_of_diverged_overflow :
    plainConfig.accepted = true ∧ (coefficient (-20)).isFinite = true ∧
      (∃ s, countModel.evaluate oneCount (.ofVec (coefficient (-20))) System.zero = pure s ∧
        Scalar.isFinite (s.regularize 0 (coefficient (-20))).balance.absTotal = true) ∧
      (Run.start () (newton countModel oneCount plainConfig none (coefficient (-20)))).1 =
        .ok ⟨.diverged .nonFiniteBalance, coefficient 1048555, 2, .infinity false,
          some [coefficient (-20), coefficient 1048555]⟩ ∧
      ∃ s, countModel.evaluate oneCount (.ofVec (coefficient 1048555)) System.zero = pure s ∧
        Scalar.isFinite (s.regularize 0 (coefficient 1048555)).balance.absTotal = false := by
  let system (b : Vec Ranged 1) :=
    Family.poisson.system (oneCount.log.map (Design.sample 1 false)) b
  have computes : countModel.Computes oneCount system :=
    GeneralizedLinear.computes rfl ⟨1, rfl, rfl⟩
  exact ⟨by decide +kernel, by decide +kernel, ⟨system (coefficient (-20)), computes _, by decide +kernel⟩,
    by decide +kernel, ⟨system (coefficient 1048555), computes _, by decide +kernel⟩⟩

end Overflow

end Newton

end BalanceFit
