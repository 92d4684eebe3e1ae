import BalanceFit.FitResult
import BalanceFit.Model
import BalanceFit.System.Scaling
import BalanceFit.System.Solution

/-!
# Newton's method on regularized balances

At an iterate the model is evaluated, the ridge is added, and an observer may look. The iterate is
then assessed: it stops the iteration, or it asks for a step. The next iterate is the old one less
the step; a small step stops the iteration there. Otherwise it goes on until the bound on
evaluations is reached.

## Main definitions

* `Observer σ α` : code that is shown every iterate, and may interfere
* `Newton.assess` : what a regularized system decides
* `Newton.iterate` : the iteration from some point on
* `newton` : the iteration from starting coefficients
-/

namespace BalanceFit

/-- Code that is called at every iterate with the number of the call, the coefficients and the
balance, and is told the shape in which the coefficients were given. The iteration goes on with the
coefficients and the balance that it returns. -/
structure Observer (σ α : Type) where
  observe : {n : Nat} → (call : Nat) → (shape : List Nat) → (beta balance : Vec α n) →
    Act σ (Vec α n × Vec α n)

namespace Newton

variable {α σ : Type} {n : Nat}

/-- What an iterate decides. -/
inductive Verdict (α : Type) (n : Nat) where
  | stop (outcome : Outcome)
  | step (delta : Vec α n)
  deriving DecidableEq

/-- What the outcome of a linear solve decides. -/
def Verdict.ofSolve : LinearSolve (Vec α n) → Except Fault (Verdict α n)
  | ⟨_, some reason⟩ => .ok (.stop (.diverged reason))
  | ⟨some delta, none⟩ => .ok (.step delta)
  | ⟨none, none⟩ => .error .noSolution

/-- What a regularized system decides. -/
def assess [Scalar α] (config : Config α) (s : System α n) : Except Fault (Verdict α n) := do
  let total := s.balance.absTotal
  if !Scalar.isFinite total then return .stop (.diverged .nonFiniteBalance)
  if Scalar.le total config.balanceTol then return .stop .converged
  match ← Scaling.ofJacobian? config.jacobianTol s.jacobian with
  | none => return .stop (.diverged .degenerateJacobian)
  | some c => Verdict.ofSolve (← (c.apply s).newtonStep)

/-- Where an iteration stands. -/
structure Progress (α : Type) (n : Nat) where
  /-- How many times the model was evaluated. -/
  evaluations : Nat
  beta : Vec α n
  /-- The total of the last balance. -/
  absBalance : α
  /-- The iterates so far, the last one first, if they are kept. -/
  history : Option (List (Vec α n))
  deriving DecidableEq

namespace Progress

/-- The beginning of an iteration. -/
def start [Scalar α] (keep : Bool) (beta : Vec α n) : Progress α n :=
  ⟨0, beta, Scalar.nan, if keep then some [beta] else none⟩

/-- One evaluation more, after which the coefficients are `beta` and the balance has a total. -/
def evaluated (p : Progress α n) (beta : Vec α n) (absBalance : α) : Progress α n :=
  ⟨p.evaluations + 1, beta, absBalance, p.history⟩

/-- The next iterate. -/
def stepped [Sub α] (p : Progress α n) (delta : Vec α n) : Progress α n :=
  let beta := Vec.zipWith (· - ·) p.beta delta
  { p with beta := beta, history := p.history.map (beta :: ·) }

/-- The result of an iteration that ends here. -/
def result (p : Progress α n) (outcome : Outcome) : FitResult (Vec α n) α :=
  ⟨outcome, p.beta, p.evaluations, p.absBalance, p.history.map List.reverse⟩

end Progress

variable [Scalar α]

/-- Evaluates the model, adds the ridge, and lets the observer look: the coefficients and the system
with which the iteration goes on. -/
def visit (model : Model (Act σ) α) (store : Store α) (config : Config α)
    (observer : Option (Observer σ α)) (call : Nat) (beta : Vec α n) :
    Run σ α (Vec α n × System α n) := do
  let s ← Run.act (model.evaluate store (.ofVec beta) System.zero)
  let s := s.regularize config.epsilon beta
  match observer with
  | none => return (beta, s)
  | some o =>
    Run.note ⟨beta.toList, s.balance.toList⟩
    let (beta, balance) ← Run.act (o.observe call [n] beta s.balance)
    return (beta, { s with balance := balance })

/-- The iteration with `remaining` evaluations to go. -/
def iterate (model : Model (Act σ) α) (store : Store α) (config : Config α)
    (observer : Option (Observer σ α)) :
    (remaining : Nat) → Progress α n → Run σ α (FitResult (Vec α n) α)
  | 0, p => return p.result .exhausted
  | remaining + 1, p => do
    let (beta, s) ← visit model store config observer (p.evaluations + 1) p.beta
    let p := p.evaluated beta s.balance.absTotal
    Run.printFrom 1 config.verbosity (.iteration p.evaluations p.absBalance)
    Run.printFrom 2 config.verbosity (.coefficients beta.toList)
    Run.printFrom 2 config.verbosity (.balance s.balance.toList)
    match ← Run.ofExcept (assess config s) with
    | .stop outcome => return p.result outcome
    | .step delta =>
      let p := p.stepped delta
      Run.printFrom 1 config.verbosity (.step delta.absTotal)
      if Scalar.le delta.absTotal config.stepTol then return p.result .converged
      else iterate model store config observer remaining p

end Newton

/-- Newton's method from starting coefficients. If they are not finite the model is not evaluated.
-/
def newton {α σ : Type} {n : Nat} [Scalar α] (model : Model (Act σ) α) (store : Store α)
    (config : Config α) (observer : Option (Observer σ α)) (beta : Vec α n) :
    Run σ α (FitResult (Vec α n) α) :=
  let p := Newton.Progress.start config.history beta
  if beta.isFinite then Newton.iterate model store config observer config.maxIter p
  else return p.result (.diverged .nonFiniteWarmStart)

end BalanceFit
