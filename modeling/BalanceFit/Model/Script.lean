import BalanceFit.Model
import BalanceFit.System.Buffers

/-!
# Scripted models

A scripted model has a system written down for each of its evaluations, whatever the coefficients.

## Main definitions

* `ScriptStep`, `Script` : what is written at an evaluation, and at all of them
* `Script.evaluation` : the evaluation that follows a script
-/

namespace BalanceFit

variable {α : Type}

/-- A step of a script: a balance and a Jacobian to be written, as far as they are arrays of
numbers, or the words with which the model gives up. -/
inductive ScriptStep (α : Type) where
  | write (balance jacobian : Except Fault (Grid α))
  | giveUp (words : String)

/-- What a model does at each evaluation; the last step is repeated. -/
abbrev Script (α : Type) := List (ScriptStep α)

/-- The system that a step of a script leaves in buffers of size `n`. -/
def ScriptStep.system [Zero α] (n : Nat) : ScriptStep α → Except Fault (System α n)
  | write balance jacobian => do
    let g ← Vec.ofGrid n (← balance)
    let j ← Mat.ofGrid n (← jacobian)
    return ⟨g, j⟩
  | giveUp words => .error (.gaveUp words)

/-- The evaluation that follows a script. The user's state is the number of evaluations so far; one
that fails counts. -/
def Script.evaluation [Zero α] (script : Script α) : Evaluation (Act Nat) α :=
  fun n _ _ _ => do
    let k ← getModify (· + 1)
    match script[min k (script.length - 1)]? with
    | some step => ExceptT.mk (pure (step.system n))
    | none => throw .noSuchIndex

end BalanceFit
