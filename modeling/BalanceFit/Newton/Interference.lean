import BalanceFit.Grid.Arithmetic
import BalanceFit.Newton

/-!
# Observers that interfere

## Main definitions

* `Interference α` : what an observer does to the iteration
* `Interference.observer` : the observer that does it
-/

namespace BalanceFit

/-- What an observer does to an iteration; by default it just looks. -/
structure Interference (α : Type) where
  /-- Factors for the balance, as far as they are numbers. -/
  scaleBalance : Option (Except Fault (Grid α)) := none
  /-- Numbers to be added to the coefficients, as far as they are numbers. -/
  shiftBeta : Option (Except Fault (Grid α)) := none
  /-- The call at which it stops the iteration, and the word that it leaves. -/
  stopAt : Option (Int × String) := none

namespace Interference

variable {α : Type} {n : Nat}

/-- A vector that was given as an array of some shape, changed by the entries of another array, if
there is one, that is spread over it. -/
def change (f : α → α → α) (shape : List Nat) (v : Vec α n) :
    Option (Except Fault (Grid α)) → Except Fault (Vec α n)
  | none => .ok v
  | some g => do
    match (← g).spread? shape with
    | some g => return .ofFn fun i => ((g.entries[i.val]?).map (f (v i))).getD (v i)
    | none => throw .shapeMismatch

/-- The observer that interferes at every call. -/
def observer {σ : Type} [Add α] [Mul α] (i : Interference α) : Observer σ α where
  observe {n} call shape beta balance := do
    let balance ← ExceptT.mk (pure (change (· * ·) [n] balance i.scaleBalance))
    let beta ← ExceptT.mk (pure (change (· + ·) shape beta i.shiftBeta))
    match i.stopAt with
    | some (k, word) => if k = call then throw (.stopped word) else return (beta, balance)
    | none => return (beta, balance)

end Interference

end BalanceFit
