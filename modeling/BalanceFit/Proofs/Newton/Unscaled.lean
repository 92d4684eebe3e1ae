import Mathlib.Algebra.Order.Field.Basic
import BalanceFit.Proofs.System.Solved

/-!
# Scaling makes no difference in exact arithmetic

Before a system is solved both of its sides are multiplied by a factor. In exact arithmetic the
scaled system has the same step, or fails for the same reason. So an iteration that solves the
systems as they are cannot be told from one that scales them first.

## Main definitions

* `Newton.assessUnscaled` : what a system decides if it is solved as it is
* `Newton.iterateBy` : the iteration whose systems are assessed in some way
* `newtonUnscaled` : Newton's method without a scaling

## Main statements

* `Newton.assess_eq_assessUnscaled` : a system is assessed in the same way if it is solved as it is
* `newton_eq_newtonUnscaled` : so the iterations are equal
-/

namespace BalanceFit

section Plain

variable {α σ : Type} [Scalar α] {n : Nat}

namespace Newton

/-- What a regularized system decides if it is solved as it is. The Jacobian still has to have a
total above its tolerance. -/
def assessUnscaled (config : Config α) (s : System α n) : Except Fault (Verdict α n) := do
  if !Scalar.isFinite s.balance.absTotal then return .stop (.diverged .nonFiniteBalance)
  if Scalar.le s.balance.absTotal config.balanceTol then return .stop .converged
  if !Scalar.isFinite s.jacobian.absTotal || Scalar.le s.jacobian.absTotal config.jacobianTol then
    return .stop (.diverged .degenerateJacobian)
  Verdict.ofSolve (← s.newtonStep)

/-- The iteration with `remaining` evaluations to go, whose systems are assessed by a function. -/
def iterateBy (judge : System α n → Except Fault (Verdict α n)) (model : Model (Act σ) α)
    (store : Store α) (config : Config α) (observer : Option (Observer σ α)) :
    (remaining : Nat) → Progress α n → Run σ α (FitResult (Vec α n) α)
  | 0, p => return p.result .exhausted
  | remaining + 1, p => do
    let (beta, s) ← visit model store config observer (p.evaluations + 1) p.beta
    let p := p.evaluated beta s.balance.absTotal
    Run.printFrom 1 config.verbosity (.iteration p.evaluations p.absBalance)
    Run.printFrom 2 config.verbosity (.coefficients beta.toList)
    Run.printFrom 2 config.verbosity (.balance s.balance.toList)
    match ← Run.ofExcept (judge s) with
    | .stop outcome => return p.result outcome
    | .step delta =>
      let p := p.stepped delta
      Run.printFrom 1 config.verbosity (.step delta.absTotal)
      if Scalar.le delta.absTotal config.stepTol then return p.result .converged
      else iterateBy judge model store config observer remaining p

/-- The iteration is the one whose systems are assessed after a scaling. -/
theorem iterate_eq_iterateBy (model : Model (Act σ) α) (store : Store α) (config : Config α)
    (observer : Option (Observer σ α)) (remaining : Nat) (p : Progress α n) :
    iterate model store config observer remaining p =
      iterateBy (assess config) model store config observer remaining p := by
  induction remaining generalizing p with
  | zero => rfl
  | succ remaining ih =>
    have rest : iterate model store config observer remaining =
        iterateBy (assess config) model store config observer remaining := funext ih
    rw [iterate, iterateBy]
    exact rest ▸ rfl

end Newton

/-- Newton's method from starting coefficients, without a scaling. -/
def newtonUnscaled (model : Model (Act σ) α) (store : Store α) (config : Config α)
    (observer : Option (Observer σ α)) (beta : Vec α n) : Run σ α (FitResult (Vec α n) α) :=
  let p := Newton.Progress.start config.history beta
  if beta.isFinite then
    Newton.iterateBy (Newton.assessUnscaled config) model store config observer config.maxIter p
  else return p.result (.diverged .nonFiniteWarmStart)

end Plain

section Iterations

variable {K σ : Type} [Field K] [LinearOrder K] [IsStrictOrderedRing K] {n : Nat}
  {config : Config K}

/-- With accepted parameters a system is assessed in the same way if it is solved as it is. -/
theorem Newton.assess_eq_assessUnscaled (accepted : config.accepted = true) (s : System K n) :
    assess config s = assessUnscaled config s := by
  simp only [assess, assessUnscaled, Scalar.isFinite_eq_true, Bool.not_true, Bool.false_or,
    Bool.false_eq_true, if_false, Scalar.le_iff, Scaling.ofJacobian?, Scaling.ofTotal?_eq]
  by_cases balanced : s.balance.absTotal ≤ config.balanceTol
  · rw [if_pos balanced, if_pos balanced]
  · rw [if_neg balanced, if_neg balanced]
    by_cases small : s.jacobian.absTotal ≤ config.jacobianTol
    · rw [if_pos small, if_pos small]
      rfl
    · -- The total is not zero, so there is a factor, and it is not zero, either.
      have total : s.jacobian.absTotal ≠ 0 := by
        intro zero
        rw [zero] at small
        exact small (Scalar.isThreshold_iff.1 (Config.isThreshold_jacobianTol accepted))
      rw [if_neg small, if_neg small, if_neg total]
      change (Scaling.apply ⟨_⟩ s).newtonStep >>= Verdict.ofSolve = _
      rw [System.newtonStep_apply (Mat.div_absTotal_ne_zero total)]

/-- **In exact arithmetic scaling makes no difference.** For every model, store and observer, and
from all starting coefficients, an iteration with accepted parameters is equal to the one that
solves the systems as they are: it returns or fails with the same, prints the same, and shows and
does the same to the user's code. -/
theorem newton_eq_newtonUnscaled (accepted : config.accepted = true) (model : Model (Act σ) K)
    (store : Store K) (observer : Option (Observer σ K)) (start : Vec K n) :
    newton model store config observer start = newtonUnscaled model store config observer start := by
  have same : Newton.assess config = Newton.assessUnscaled (n := n) config :=
    funext (Newton.assess_eq_assessUnscaled accepted)
  rw [newton, newtonUnscaled, Newton.iterate_eq_iterateBy, same]

end Iterations

/-- The model that asks for coefficients each of which is one less the sum of all of them. -/
def coupledModel : Model (Act Unit) ℚ where
  name := "Coupled"
  dim? := none
  link? := none
  evaluate? := some fun n _ beta _ =>
    let b : Vec ℚ n := .ofListPadded n beta.entries
    pure ⟨b.map (· + b.sum - 1), Mat.ofFn fun i j => if i = j then 2 else 1⟩

/-- Without a scaling, which would multiply the system by `2 / 3`, the two coefficients are found in
one step. -/
theorem newton_eq_newtonUnscaled_coupled :
    let config : Config ℚ := ⟨0, 0, 1, 0, 5, .level 0, true⟩
    let zeros : Vec ℚ 2 := .replicate 2 0
    let thirds : Vec ℚ 2 := .replicate 2 (1 / 3)
    config.accepted = true ∧
      (Run.start () (newtonUnscaled coupledModel (.empty none) config none zeros)).1 =
        .ok ⟨.converged, thirds, 2, 0, some [zeros, thirds]⟩ := by
  intro config zeros thirds
  have accepted : config.accepted = true := by decide +kernel
  refine ⟨accepted, ?_⟩
  rw [← newton_eq_newtonUnscaled accepted]
  decide +kernel

end BalanceFit
