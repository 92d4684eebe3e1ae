import Mathlib.Algebra.BigOperators.Field
import Mathlib.Algebra.BigOperators.Fin
import Mathlib.Algebra.Order.Field.Basic
import Mathlib.Algebra.Order.Ring.Abs
import Mathlib.Tactic.FieldSimp
import Mathlib.Tactic.Ring
import BalanceFit.Proofs.Newton.Assess
import BalanceFit.Proofs.System.Singular

/-!
# Where an iteration ends

If an iteration returns, then it was stopped by the assessment of a system that it visited, or by a
short step, or by the bound on evaluations, or it never began. In exact arithmetic the assessment
has three ways to stop it: the system is in balance, its Jacobian is too small in total, or its
Jacobian is singular.

## Main definitions

* `Newton.Ended` : the endings, with what is known of the last system

## Main statements

* `Newton.ended_of_newton` : these are all endings
* `Newton.verdict_cases` : the assessment in exact arithmetic
* `Newton.balance_of_converged` : an ending within the tolerance is one in balance
-/

namespace BalanceFit.Newton

open Run

section Endings

variable {α σ : Type} [Scalar α] {n : Nat} {model : Model (Act σ) α} {store : Store α}
  {config : Config α} {observer : Option (Observer σ α)}

/-- The ways to end with a result. -/
inductive Ended (model : Model (Act σ) α) (store : Store α) (config : Config α)
    (observer : Option (Observer σ α)) (r : FitResult (Vec α n) α) : Prop
  /-- The assessment of a system was a stop. -/
  | stopped {call : Nat} {b : Vec α n} {s : System α n} {w w' : World σ α}
      (visited : Returns (visit model store config observer call b) w (r.beta, s) w')
      (assessed : assess config s = .ok (.stop r.outcome))
      (total : r.absBalance = s.balance.absTotal)
  /-- A step was short. -/
  | shortStep {call : Nat} {b beta delta : Vec α n} {s : System α n} {w w' : World σ α}
      (visited : Returns (visit model store config observer call b) w (beta, s) w')
      (assessed : assess config s = .ok (.step delta))
      (outcome : r.outcome = .converged) (total : r.absBalance = s.balance.absTotal)
  /-- No more evaluations were allowed. -/
  | exhausted (outcome : r.outcome = .exhausted)
  /-- The starting coefficients are not finite. -/
  | unstarted (outcome : r.outcome = .diverged .nonFiniteWarmStart)

/-- An iteration that returns has ended in one of these ways: they are the ways to conclude it,
without the trail that leads there. -/
theorem ended_of_newton {start : Vec α n} {w w' : World σ α} {r : FitResult (Vec α n) α}
    (returned : Returns (newton model store config observer start) w r w') :
    Ended model store config observer r := by
  by_cases finite : start.isFinite = true
  · cases concluded_of_newton finite returned with
    | stopped _ visited assessed result =>
      subst result
      exact .stopped visited assessed rfl
    | shortStep _ visited assessed _ result =>
      subst result
      exact .shortStep visited assessed rfl rfl
    | exhausted _ result =>
      subst result
      exact .exhausted rfl
  · rw [newton, if_neg finite] at returned
    obtain ⟨rfl, -⟩ := returns_pure_iff.1 returned
    exact .unstarted rfl

end Endings

section Exact

variable {K : Type} [Field K] [LinearOrder K] {n : Nat} {config : Config K} {s : System K n}

/-- A system in balance stops the iteration. -/
theorem assess_of_balanced (balanced : s.balance.absTotal ≤ config.balanceTol) :
    assess config s = .ok (.stop .converged) := by
  simp only [assess, Scalar.isFinite_eq_true, Bool.not_true, Bool.false_eq_true, if_false]
  rw [if_pos (Scalar.le_iff.2 balanced)]
  rfl

variable [IsStrictOrderedRing K]

/-- What an assessment in exact arithmetic can decide. A step is asked for only out of balance. -/
theorem verdict_cases {verdict : Verdict K n} (assessed : assess config s = .ok verdict) :
    verdict = .stop .converged ∧ s.balance.absTotal ≤ config.balanceTol ∨
      verdict = .stop (.diverged .degenerateJacobian) ∧
        s.jacobian.absTotal ≤ config.jacobianTol ∨
      verdict = .stop (.diverged .singularSystem) ∧ s.jacobian.IsSingular ∨
      ∃ delta, verdict = .step delta ∧ config.balanceTol < s.balance.absTotal := by
  cases assessed_of_assess assessed with
  | broken broken => exact absurd ((Scalar.isFinite_eq_true _).symm.trans broken) Bool.noConfusion
  | balanced _ within => exact .inl ⟨rfl, Scalar.le_iff.1 within⟩
  | degenerate _ _ unscaled =>
    exact .inr (.inl ⟨rfl, Scaling.le_of_ofJacobian?_eq_none unscaled⟩)
  | @unsolved c _ reason _ _ scaled solved =>
    have positive : 0 < n := by
      rcases Nat.eq_zero_or_pos n with rfl | positive
      · cases solved
      · exact positive
    obtain ⟨r, solved', ⟨regular, -⟩ | ⟨singular, kernel⟩⟩ :=
      System.exists_newtonStep_apply positive scaled
    all_goals
      rw [solved'] at solved
      obtain rfl := Except.ok.inj solved
    · cases regular
    · cases singular
      exact .inr (.inr (.inl ⟨rfl, kernel⟩))
  | solved _ above =>
    exact .inr (.inr (.inr ⟨_, rfl, not_le.1 (mt Scalar.le_iff.2 above)⟩))

/-- An iteration whose observer only looks, and that ends within its tolerance, was stopped because
the system at its coefficients is in balance. A short step comes from a system out of balance. -/
theorem balance_of_converged {σ : Type} {model : Model (Act σ) K} {store : Store K}
    {observer : Option (Observer σ K)} (looks : ∀ o ∈ observer, o.LooksOnly) {start : Vec K n}
    {w w' : World σ K} {r : FitResult (Vec K n) K}
    (returned : Returns (newton model store config observer start) w r w')
    (converged : r.outcome = .converged) (within : r.absBalance ≤ config.balanceTol) :
    ∃ t u u', (model.evaluate store (.ofVec r.beta) System.zero).run.run u = (.ok t, u') ∧
      (t.regularize config.epsilon r.beta).balance.absTotal ≤ config.balanceTol := by
  cases ended_of_newton returned with
  | exhausted outcome => exact nomatch converged.symm.trans outcome
  | unstarted outcome => exact nomatch converged.symm.trans outcome
  | @shortStep _ _ _ delta s _ _ _ assessed _ total =>
    rcases verdict_cases assessed with ⟨verdict, -⟩ | ⟨verdict, -⟩ | ⟨verdict, -⟩ | ⟨_, -, above⟩
    · cases verdict
    · cases verdict
    · cases verdict
    · -- A step was taken, so the total was above the tolerance.
      rw [total] at within
      exact absurd within (not_le.2 above)
  | stopped visited assessed total =>
    obtain ⟨same, t, u, u', ran, rfl⟩ := visit_eq_of_looksOnly looks visited
    rw [total] at within
    rw [← same] at ran within
    exact ⟨t, u, u', ran, within⟩

end Exact

end BalanceFit.Newton
