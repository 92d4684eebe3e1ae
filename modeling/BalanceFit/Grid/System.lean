import BalanceFit.Grid.Arithmetic
import BalanceFit.System.Scaling

/-!
# Systems given as arrays of any shape

The operations on a balance and a Jacobian for arrays whose shapes have not been compared. A ridge
or a factor also applies to arrays that only spread over each other.

## Main definitions

* `Grid.regularize` : balance and Jacobian with a ridge, and the fault that may have come between
  them
* `Grid.diagonal?` : vectors as diagonal matrices, and the diagonals of matrices
* `Grid.scaling?`, `Grid.scaleBy` : the factor for a Jacobian, and arrays multiplied by a factor
-/

namespace BalanceFit.Grid

variable {α : Type} [Scalar α]

/-- The sum of the magnitudes of the entries. -/
def absTotal (g : Grid α) : α := pairwiseSum (g.entries.map Scalar.abs)

/-- The diagonal matrix of a vector, or the diagonal of a matrix. -/
def diagonal? (g : Grid α) : Option (Grid α) :=
  match g.shape with
  | [n] => (g.toVec? n).map fun v => .ofMat (.ofFn fun i j => if i = j then v i else 0)
  | [m, n] =>
    let size := min m n
    some ⟨[size], (pieces size (n + 1) g.entries).filterMap List.head?⟩
  | _ => none

/-- The distance between neighbouring entries of the diagonal of an array with `axes` axes of length
`n`. -/
def diagonalStride (n axes : Nat) : Nat := ((List.range axes).map (Nat.pow n)).foldl (· + ·) 0

/-- An array with a number added to the entries of its diagonal. There is a diagonal if the array
has two axes at least, all of one length. It takes an index for every axis, and one axis less than
an array can have is the most that can be indexed at once. -/
def addDiagonal (g : Grid α) (d : α) : Except Fault (Grid α) :=
  match g.shape with
  | n :: m :: rest =>
    if (m :: rest).all (· == n) then
      let axes := rest.length + 2
      if axes < axisLimit then
        let stride := diagonalStride n axes
        .ok ⟨g.shape, g.entries.mapIdx fun i x => if i % stride = 0 then x + d else x⟩
      else .error .noSuchIndex
    else .error .shapeMismatch
  | _ => .error .shapeMismatch

/-- Balance and Jacobian after a ridge was added, as far as the shapes allowed it. -/
structure Regularized (α : Type) where
  balance : Grid α
  jacobian : Grid α
  fault : Option Fault

/-- Adds `2 * epsilon * beta` to the balance, over which `beta` is spread, and then `2 * epsilon` to
the diagonal of the Jacobian. The number `epsilon` comes as far as it is one. -/
def regularize (epsilon : Except Fault α) (beta balance jacobian : Grid α) : Regularized α :=
  match epsilon with
  | .error f => ⟨balance, jacobian, some f⟩
  | .ok epsilon =>
    match balance.update? (· + ·) (beta.map ((2 : Nat) * epsilon * ·)) with
    | none => ⟨balance, jacobian, some .shapeMismatch⟩
    | some balance =>
      match jacobian.addDiagonal ((2 : Nat) * epsilon) with
      | .error f => ⟨balance, jacobian, some f⟩
      | .ok jacobian => ⟨balance, jacobian, none⟩

/-- The factor for a Jacobian; its rows are counted along the first axis. The bound `tol` comes as
far as it is a number, and is looked at only if the sum of the magnitudes is finite. -/
def scaling? (tol : Except Fault α) (jacobian : Grid α) : Except Fault (Option (Scaling α)) := do
  let total := jacobian.absTotal
  if !Scalar.isFinite total then return none
  let tol ← tol
  match jacobian.shape with
  | n :: _ => Scaling.ofTotal? tol n total
  | [] => if Scalar.le total tol then return none else throw .noSuchIndex

/-- An array multiplied by a factor. -/
def scale (c : Scaling α) (g : Grid α) : Grid α := g.map (· * c.factor)

/-- An array multiplied by a factor that comes as an array, which is spread over it. -/
def scaleBy (g factor : Grid α) : Except Fault (Grid α) :=
  match g.update? (· * ·) factor with
  | some g => .ok g
  | none => .error .shapeMismatch

end BalanceFit.Grid
