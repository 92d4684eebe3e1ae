import BalanceFit.Model
import BalanceFit.System.Buffers

/-!
# Polynomial models

In a polynomial model each coefficient has an equation of its own: its balance is the value of a
polynomial, and its Jacobian has the derivatives on the diagonal.

## Main definitions

* `Polynomials α` : a polynomial for each coefficient
* `Polynomials.evaluation` : the balance and the Jacobian
-/

namespace BalanceFit

variable {α : Type}

/-- A polynomial for each coefficient, lowest degree first; its numbers come as far as they are
numbers. -/
abbrev Polynomials (α : Type) := List (List (Except Fault α))

/-- The value and the derivative of a polynomial, by Horner's rule. -/
def Polynomials.horner [Scalar α] (p : List (Except Fault α)) (b : α) : Except Fault (α × α) :=
  p.foldrM (fun c (value, derivative) => do
    return (value * b + (← c), derivative * b + value)) (0, 0)

/-- The coefficient that the polynomial at an index is about. The rows of an array are no numbers.
-/
def Polynomials.coefficient (beta : Grid α) (i : Nat) : Except Fault α :=
  match beta.shape with
  | [_] => match beta.entries[i]? with
    | some b => .ok b
    | none => .error .noSuchIndex
  | n :: _ => if i < n then .error .notANumber else .error .noSuchIndex
  | [] => .error .noSuchIndex

/-- The system in which each coefficient has an equation of its own. Entries without a polynomial
keep what they held. -/
def Polynomials.evaluation [Scalar α] (ps : Polynomials α) : Evaluation (Except Fault) α :=
  fun n _ beta buffers => do
    let values ← ps.zipIdx.mapM fun (p, i) => do
      let value ← horner p (← coefficient beta i)
      if i < n then return value else throw .noSuchIndex
    return buffers.overwrite values

end BalanceFit
