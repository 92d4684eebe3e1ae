import BalanceFit.Newton
import BalanceFit.NormalEquations
import BalanceFit.Resize

/-!
# Fitting a model

A fitter owns a store of observations. A fit has two phases: a warm start, in which linear least
squares on the transformed responses gives coefficients to begin with, and Newton's method from
there.

## Main definitions

* `Fitter σ α` : a model, the parameters of the fit, and the observations
* `Fitter.create` : the fitter for a complete model
* `Fitter.warmStart` : the first phase
* `Fitter.solve` : both phases
-/

namespace BalanceFit

variable {α σ : Type}

/-- A model, the parameters of the fit, and the observations. -/
structure Fitter (σ α : Type) where
  model : Model (Act σ) α
  config : Config α
  store : Store α

namespace Fitter

/-- The fitter without observations for a complete model. -/
def create (model : Model (Act σ) α) (config : Config α) : Except Fault (Fitter σ α) :=
  if model.isComplete then .ok ⟨model, config, .empty none⟩
  else .error (.incompleteModel model.name)

/-- Appends an observation, as `Store.add` does. -/
def add (f : Fitter σ α) (x : Except Fault (Grid α)) (y weight : Except Fault α) :
    Except Fault (Fitter σ α) := do
  let (_, s) ← f.store.add x y weight
  return { f with store := s }

/-- Appends an observation with its response transformed by the model. -/
def addLinked (model : Model (Act σ) α) (s : Store α) (o : Observation α) : Run σ α (Store α) := do
  let y ← Run.act (model.link o.y)
  let y := match y with
    | some y => .ok y
    | none => .error .notANumber
  let (_, s) ← Run.ofExcept (s.add (.ok (.ofList o.x)) y (.ok o.weight))
  return s

variable [Scalar α] [LeastSquares α]

/-- The coefficients that least squares gives for the transformed responses, brought to the length
that the model asks for. -/
def warmStart (f : Fitter σ α) : Run σ α (List α) :=
  match f.store.log with
  | [] => throw .nothingToFit
  | first :: _ => do
    let dim ← Run.act (f.model.dim first)
    let linked ← f.store.log.foldlM (addLinked f.model) (.empty f.store.width)
    let beta ← Run.ofExcept linked.leastSquares
    Run.printFrom 2 f.config.verbosity (.warmStart beta)
    if dim.agrees beta.length then return beta
    Run.printFrom 2 f.config.verbosity (.resize beta.length dim)
    Run.ofExcept (dim.length >>= (resize? · beta))

/-- Fits the model to all observations. -/
def solve (f : Fitter σ α) (observer : Option (Observer σ α)) :
    Run σ α (FitResult (List α) α) := do
  Run.printFrom 1 f.config.verbosity (.warmStartPhase f.store.size)
  let beta ← f.warmStart
  Run.printFrom 1 f.config.verbosity (.iterationPhase beta.length f.config.maxIter)
  let r ← newton f.model f.store f.config observer (.ofList beta)
  Run.printFrom 0 f.config.verbosity (.verdict r.success)
  Run.printFrom 0 f.config.verbosity (.message r.summary)
  return r.map Vec.toList

end Fitter

end BalanceFit
