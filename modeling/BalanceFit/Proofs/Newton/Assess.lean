import BalanceFit.Proofs.Newton.Trail
import BalanceFit.Proofs.Scalar.NonFinite

/-!
# How an assessment comes to its verdict

The assessment of a regularized system makes its tests in order, and a later one is made only of a
system that passed those before. So a verdict says what all tests before it said.

## Main definitions

* `Newton.Assessed` : the five ways to a verdict, each with what is known of the system

## Main statements

* `Newton.assessed_of_assess` : these are all ways
* `Newton.isFinite_of_assess` : all verdicts but one are about a finite balance
* `Newton.isFinite_of_step` : a step that is asked for is finite
-/

namespace BalanceFit

variable {α : Type} [Scalar α] {n : Nat}

/-- A solve has a solution only if it passed the test of being finite. -/
theorem LinearSolve.isFinite_of_judge {S : Type} {finite : S → Bool} {x : Option S} {y : S}
    (found : (judge finite x).solution = some y) : finite y = true := by
  cases x with
  | none => cases found
  | some x =>
    rw [judge] at found
    split at found
    case isTrue passed =>
      cases found
      exact passed
    case isFalse => cases found

/-- A solve does not fail because of a balance. -/
theorem LinearSolve.reason_judge_ne {S : Type} (finite : S → Bool) (x : Option S) :
    (judge finite x).reason ≠ some .nonFiniteBalance := by
  cases x with
  | none => exact nofun
  | some x =>
    rw [judge]
    split
    · exact nofun
    · exact nofun

namespace System

theorem reason_newtonStep_ne {s : System α n} {r : LinearSolve (Vec α n)}
    (solved : s.newtonStep = .ok r) : r.reason ≠ some .nonFiniteBalance := by
  cases n with
  | zero => cases solved
  | succ n =>
    obtain rfl := Except.ok.inj solved
    rw [LinearSolve.map, LinearSolve.ofMatrix]
    exact LinearSolve.reason_judge_ne _ _

theorem isFinite_of_newtonStep {s : System α n} {delta : Vec α n} {reason : Option Divergence}
    (solved : s.newtonStep = .ok ⟨some delta, reason⟩) : delta.isFinite = true := by
  cases n with
  | zero => cases solved
  | succ n =>
    have solution := congrArg LinearSolve.solution (Except.ok.inj solved)
    rw [LinearSolve.map, LinearSolve.ofMatrix] at solution
    obtain ⟨x, found, rfl⟩ := Option.map_eq_some_iff.1 solution
    have finite : x.isFinite = true := LinearSolve.isFinite_of_judge found
    refine Vec.isFinite_iff.2 fun i => ?_
    rw [Mat.firstColumn, Vec.ofFn_apply]
    exact Vec.isFinite_iff.1 (Vec.all_eq_true_iff.1 finite i) Vec.first

end System

namespace Newton

/-- The ways in which a system is assessed, in the order of the tests. -/
inductive Assessed (config : Config α) (s : System α n) : Verdict α n → Prop
  /-- The balance is not finite. -/
  | broken (broken : Scalar.isFinite s.balance.absTotal = false) :
    Assessed config s (.stop (.diverged .nonFiniteBalance))
  /-- The balance is within the tolerance. -/
  | balanced (finite : Scalar.isFinite s.balance.absTotal = true)
    (within : Scalar.le s.balance.absTotal config.balanceTol = true) :
    Assessed config s (.stop .converged)
  /-- The Jacobian has no scaling. -/
  | degenerate (finite : Scalar.isFinite s.balance.absTotal = true)
    (above : ¬ Scalar.le s.balance.absTotal config.balanceTol = true)
    (unscaled : Scaling.ofJacobian? config.jacobianTol s.jacobian = .ok none) :
    Assessed config s (.stop (.diverged .degenerateJacobian))
  /-- The solve of the scaled system has failed. -/
  | unsolved {c : Scaling α} {solution : Option (Vec α n)} {reason : Divergence}
    (finite : Scalar.isFinite s.balance.absTotal = true)
    (above : ¬ Scalar.le s.balance.absTotal config.balanceTol = true)
    (scaled : Scaling.ofJacobian? config.jacobianTol s.jacobian = .ok (some c))
    (solved : (c.apply s).newtonStep = .ok ⟨solution, some reason⟩) :
    Assessed config s (.stop (.diverged reason))
  /-- The solution of the scaled system is the step. -/
  | solved {c : Scaling α} {delta : Vec α n}
    (finite : Scalar.isFinite s.balance.absTotal = true)
    (above : ¬ Scalar.le s.balance.absTotal config.balanceTol = true)
    (scaled : Scaling.ofJacobian? config.jacobianTol s.jacobian = .ok (some c))
    (solved : (c.apply s).newtonStep = .ok ⟨some delta, none⟩) :
    Assessed config s (.step delta)

variable {config : Config α} {s : System α n} {verdict : Verdict α n}

/-- A verdict is reached in one of these ways. -/
theorem assessed_of_assess (assessed : assess config s = .ok verdict) :
    Assessed config s verdict := by
  rw [assess] at assessed
  cases finite : Scalar.isFinite s.balance.absTotal with
  | false =>
    rw [finite] at assessed
    cases assessed
    exact .broken finite
  | true =>
    rw [finite] at assessed
    simp only [Bool.not_true, Bool.false_eq_true, if_false] at assessed
    split at assessed
    case isTrue within =>
      cases assessed
      exact .balanced finite within
    case isFalse above =>
      cases scaled : Scaling.ofJacobian? config.jacobianTol s.jacobian with
      | error e =>
        rw [scaled] at assessed
        cases assessed
      | ok c =>
        rw [scaled] at assessed
        cases c with
        | none =>
          cases assessed
          exact .degenerate finite above scaled
        | some c =>
          change (c.apply s).newtonStep >>= Verdict.ofSolve = _ at assessed
          cases solved : (c.apply s).newtonStep with
          | error e =>
            rw [solved] at assessed
            cases assessed
          | ok r =>
            rw [solved] at assessed
            -- The solve has a reason for its failure, or a solution, or neither.
            rcases r with ⟨_ | delta, _ | reason⟩
            · cases assessed
            · cases assessed
              exact .unsolved finite above scaled solved
            · cases assessed
              exact .solved finite above scaled solved
            · cases assessed
              exact .unsolved finite above scaled solved

/-- All verdicts but one are about a finite balance. -/
theorem isFinite_of_assess (assessed : assess config s = .ok verdict)
    (other : verdict ≠ .stop (.diverged .nonFiniteBalance)) :
    Scalar.isFinite s.balance.absTotal = true := by
  cases assessed_of_assess assessed with
  | broken => exact absurd rfl other
  | balanced finite => exact finite
  | degenerate finite => exact finite
  | unsolved finite => exact finite
  | solved finite => exact finite

/-- A balance that is finite is not what stops an iteration. -/
theorem reason_ne_of_isFinite {reason : Divergence}
    (finite : Scalar.isFinite s.balance.absTotal = true)
    (assessed : assess config s = .ok (.stop (.diverged reason))) : reason ≠ .nonFiniteBalance := by
  cases assessed_of_assess assessed with
  | broken broken => exact absurd (finite.symm.trans broken) Bool.noConfusion
  | degenerate => exact nofun
  | unsolved _ _ _ solved =>
    rintro rfl
    exact System.reason_newtonStep_ne solved rfl

/-- A step that is asked for is finite. -/
theorem isFinite_of_step {delta : Vec α n} (assessed : assess config s = .ok (.step delta)) :
    delta.isFinite = true := by
  cases assessed_of_assess assessed with
  | solved _ _ _ solved => exact System.isFinite_of_newtonStep solved

end Newton

end BalanceFit
