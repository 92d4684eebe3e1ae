import BalanceFit.Grid.System
import BalanceFit.Model
import BalanceFit.Scalar.Double
import BalanceFit.System.Buffers

/-!
# The cube root as a balance

The balance that is the cube root of the coefficients has its zero at zero, but a Newton step from
anywhere else leads twice as far away on the other side. At zero the derivative is infinite.

## Main definitions

* `CubeRoot.evaluation` : the balance, and its derivative on the diagonal of the Jacobian
-/

namespace BalanceFit.CubeRoot

/-- The derivative of the cube root where it has a value. -/
def derivative (root : Float) : Float := 1 / (3 * (root * root))

/-- The cube roots of the coefficients, and their derivatives on the diagonal of the Jacobian. A
single coefficient fills buffers of any size. If the coefficients are a matrix, the derivatives on
its diagonal are a row of the Jacobian. -/
def evaluation : Evaluation (Except Fault) Float := fun n _ beta _ => do
  let roots := beta.map Float.cbrt
  match (roots.map derivative).diagonal? with
  | some jacobian => return ⟨← Vec.ofGrid n roots, ← Mat.ofGrid n jacobian⟩
  | none => throw .shapeMismatch

end BalanceFit.CubeRoot
