import BalanceFit.Model
import BalanceFit.System.Buffers

/-!
# Affine models

The balance of an affine model is a matrix times the coefficients plus a vector of offsets. Its
Jacobian is the matrix, or another one that is given in its place.

## Main definitions

* `Affine α` : the rows, the offsets and the Jacobian
* `Affine.evaluation` : the balance and the Jacobian
-/

namespace BalanceFit

variable {α : Type}

/-- An affine balance. Its numbers come as far as they are numbers. -/
structure Affine (α : Type) where
  rows : List (List (Except Fault α))
  offsets : List (Except Fault α)
  jacobian : Except Fault (Grid α)

/-- The coefficients one by one, which a single value does not have. The rows of an array are no
numbers. -/
def Affine.coefficients (beta : Grid α) : Except Fault (List (Except Fault α)) :=
  match beta.shape with
  | [] => .error .notANumber
  | [_] => .ok (beta.entries.map .ok)
  | n :: _ => .ok (List.replicate n (.error .notANumber))

/-- The entries of the balance, one for each row: the sum of the row times the coefficients, as far
as both go, plus the offset. The balance has room for `n` of them. -/
def Affine.values [Scalar α] (a : Affine α) (n : Nat) (beta : Grid α) : Except Fault (List α) :=
  a.rows.zipIdx.mapM fun (row, i) => do
    let coefficients ← Affine.coefficients beta
    let products ← (row.zip coefficients).mapM fun (x, b) => return (← x) * (← b)
    match a.offsets[i]? with
    | none => throw .noSuchIndex
    | some offset =>
      let value := products.foldl (· + ·) 0 + (← offset)
      if i < n then return value else throw .noSuchIndex

/-- The balance and the Jacobian of an affine map. Entries of the balance without a row keep what
they held. -/
def Affine.evaluation [Scalar α] (a : Affine α) : Evaluation (Except Fault) α :=
  fun n _ beta buffers => do
    let values ← a.values n beta
    let j ← Mat.ofGrid n (← a.jacobian)
    return ⟨buffers.balance.overwrite values, j⟩

end BalanceFit
