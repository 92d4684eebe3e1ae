import BalanceFit.Scalar
import BalanceFit.Scalar.PairwiseSum
import BalanceFit.Vec

/-!
# The Newton system

A fit looks for the coefficients at which a vector, the balance, is zero. At an iterate the balance
and its Jacobian form a linear system whose solution is the Newton step. Before it is solved a ridge
is added to it: the gradient and the Hessian of `epsilon * ‖beta‖²`.

## Main definitions

* `System α n` : a balance and its Jacobian
* `System.regularize` : the system with a ridge
* `Vec.absTotal`, `Mat.absTotal` : sums of magnitudes, by which systems and steps are judged
-/

namespace BalanceFit

variable {α : Type} {m n : Nat}

/-- The sum of the magnitudes of the entries. -/
def Vec.absTotal [Scalar α] (v : Vec α n) : α := pairwiseSum (v.toList.map Scalar.abs)

/-- The sum of the magnitudes of the entries, which are taken row by row. -/
def Mat.absTotal [Scalar α] (a : Mat α m n) : α :=
  pairwiseSum (a.toLists.flatten.map Scalar.abs)

/-- Whether every entry is finite. -/
def Vec.isFinite [Scalar α] (v : Vec α n) : Bool := v.all Scalar.isFinite

/-- Whether every entry is finite. -/
def Mat.isFinite [Scalar α] (a : Mat α m n) : Bool := Vec.all Vec.isFinite a

/-- A balance and its Jacobian. -/
structure System (α : Type) (n : Nat) where
  balance : Vec α n
  jacobian : Mat α n n
  deriving DecidableEq

namespace System

variable [Scalar α]

/-- The system of zeros. -/
def zero : System α n := ⟨Vec.replicate n 0, Vec.replicate n (Vec.replicate n 0)⟩

/-- The system with `2 * epsilon * beta` added to the balance and `2 * epsilon` to the diagonal of
the Jacobian. -/
def regularize (epsilon : α) (beta : Vec α n) (s : System α n) : System α n where
  balance := Vec.zipWith (fun g b => g + (2 : Nat) * epsilon * b) s.balance beta
  jacobian := Mat.ofFn fun i j =>
    if i = j then s.jacobian i j + (2 : Nat) * epsilon else s.jacobian i j

@[simp] theorem regularize_balance_apply (epsilon : α) (beta : Vec α n) (s : System α n)
    (i : Fin n) :
    (s.regularize epsilon beta).balance i = s.balance i + (2 : Nat) * epsilon * beta i := by
  simp [regularize]

@[simp] theorem regularize_jacobian_apply (epsilon : α) (beta : Vec α n) (s : System α n)
    (i j : Fin n) :
    (s.regularize epsilon beta).jacobian i j =
      if i = j then s.jacobian i j + (2 : Nat) * epsilon else s.jacobian i j := by
  simp [regularize]

end System

end BalanceFit
