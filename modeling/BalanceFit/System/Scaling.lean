import BalanceFit.Fault
import BalanceFit.System

/-!
# Normalizing the magnitude of a system

The entries of balances and Jacobians differ by orders of magnitude between problems. Both sides of
a system are multiplied by `n² / ∑ |J|`, which brings the entries of the Jacobian to magnitude one
on average and leaves the solution as it is.

## Main definitions

* `Scaling` : a common factor, and `Scaling.ofTotal?`, the factor for a total magnitude
* `Scaling.ofJacobian?` : the factor for a Jacobian, if it carries enough information
* `Scaling.apply` : the system multiplied by the factor
-/

namespace BalanceFit

variable {α : Type} {n : Nat}

/-- A factor for both sides of a linear system. -/
structure Scaling (α : Type) where
  factor : α
  deriving DecidableEq, Repr

namespace Scaling

variable [Scalar α]

/-- The factor for a Jacobian with `rows` rows and the given sum of magnitudes. There is none if the
sum is not finite or at most `tol`. A sum of zero that passes this test, because `tol` is negative
or not comparable, has no quotient. -/
def ofTotal? (tol : α) (rows : Nat) (total : α) : Except Fault (Option (Scaling α)) :=
  if !Scalar.isFinite total || Scalar.le total tol then .ok none
  else if Scalar.isZero total then .error .divisionByZero
  else .ok (some ⟨((rows * rows : Nat) : α) / total⟩)

/-- The factor for a square Jacobian. -/
def ofJacobian? (tol : α) (j : Mat α n n) : Except Fault (Option (Scaling α)) :=
  ofTotal? tol n j.absTotal

/-- Both sides of a system multiplied by the factor. -/
def apply (c : Scaling α) (s : System α n) : System α n where
  balance := s.balance.map (· * c.factor)
  jacobian := Vec.map (Vec.map (· * c.factor)) s.jacobian

@[simp] theorem apply_balance_apply (c : Scaling α) (s : System α n) (i : Fin n) :
    (c.apply s).balance i = s.balance i * c.factor := by
  simp [apply]

@[simp] theorem apply_jacobian_apply (c : Scaling α) (s : System α n) (i j : Fin n) :
    (c.apply s).jacobian i j = s.jacobian i j * c.factor := by
  simp [apply]

end Scaling

end BalanceFit
