import BalanceFit.System

/-!
# Diagonal systems

If no equation of a system shares an unknown with another one, each right-hand side is multiplied by
the reciprocal of its coefficient. A coefficient that is exactly zero means that the matrix is
singular.

## Main definitions

* `Mat.isDiagonal` : whether only the diagonal of a matrix has entries other than zero
* `Diagonal.solve?` : the solution for a diagonal matrix, unless one of its entries is zero
-/

namespace BalanceFit

variable {α : Type} {n k : Nat}

/-- The entries on the diagonal. -/
def Mat.diagonal (a : Mat α n n) : Vec α n := .ofFn fun i => a i i

@[simp] theorem Mat.diagonal_apply (a : Mat α n n) (i : Fin n) : a.diagonal i = a i i := by
  simp [diagonal]

variable [Scalar α]

/-- Whether all entries off the diagonal are zero. -/
def Mat.isDiagonal (a : Mat α n n) : Bool :=
  (List.finRange n).all fun i => (List.finRange n).all fun j => i == j || Scalar.isZero (a i j)

/-- The solution of `a * x = b` for a diagonal matrix `a`, or `none` if its diagonal has a zero. -/
def Diagonal.solve? (a : Mat α n n) (b : Mat α n k) : Option (Mat α n k) :=
  if a.diagonal.all fun x => !Scalar.isZero x then
    some (.ofFn fun i c => b i c * (1 / a.diagonal i))
  else none

end BalanceFit
