import BalanceFit.Scalar
import BalanceFit.Store

/-!
# Weighted sums over observations

Balances, Jacobians and normal equations are sums over the observations of a store. Each observation
contributes its design row, which is the predictor with a trailing one if there is an intercept,
times a coefficient of its own; or the outer product of the row with itself, times a coefficient.

## Main definitions

* `Sample α p` : an observation with its design row
* `Views.samples` : the samples of the stacked arrays of a store
* `Design.moment`, `Design.gram` : the sums of rows and of outer products
-/

namespace BalanceFit

/-- An observation with a design row of length `p`. -/
structure Sample (α : Type) (p : Nat) where
  row : Vec α p
  y : α
  weight : α
  deriving DecidableEq

/-- The length of the design rows. -/
def Views.rowLength {α : Type} (v : Views α) (intercept : Bool) : Nat :=
  v.columns + intercept.toNat

/-- The design row for a predictor. -/
def Design.row {α : Type} [Zero α] [One α] (p : Nat) (intercept : Bool) (x : List α) : Vec α p :=
  .ofListPadded p (if intercept then x ++ [1] else x)

/-- The samples of stacked arrays, with rows of length `p`. -/
def Views.samples {α : Type} [Zero α] [One α] (v : Views α) (p : Nat) (intercept : Bool) :
    List (Sample α p) :=
  (v.x.zip (v.y.zip v.weight)).map fun (x, y, weight) => ⟨Design.row p intercept x, y, weight⟩

namespace Design

variable {α : Type} [Scalar α] {p : Nat}

/-- The sum of the numbers in a list, from left to right. -/
def total (l : List α) : α := l.foldl (· + ·) 0

/-- The sum of rows times coefficients. -/
def moment (terms : List (Vec α p × α)) : Vec α p :=
  .ofFn fun j => total (terms.map fun (x, c) => x j * c)

/-- The sum of outer products of rows with themselves times coefficients. -/
def gram (terms : List (Vec α p × α)) : Mat α p p :=
  .ofFn fun j k => total (terms.map fun (x, c) => x j * (x k * c))

@[simp] theorem moment_apply (terms : List (Vec α p × α)) (j : Fin p) :
    moment terms j = total (terms.map fun (x, c) => x j * c) := by
  simp [moment]

@[simp] theorem gram_apply (terms : List (Vec α p × α)) (j k : Fin p) :
    gram terms j k = total (terms.map fun (x, c) => x j * (x k * c)) := by
  simp [gram]

end Design

end BalanceFit
