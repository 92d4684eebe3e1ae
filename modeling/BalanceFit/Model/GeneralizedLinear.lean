import BalanceFit.Design
import BalanceFit.Model
import BalanceFit.Model.Columns
import BalanceFit.Model.Family
import BalanceFit.System.Buffers

/-!
# Generalized linear models

The balance of a generalized linear model is `∑ w * x * (mean (x · beta) - y)` over the
observations, with Jacobian `∑ w * variance * x xᵀ`. It is the gradient of the weighted negative
log-likelihood.

## Main definitions

* `GeneralizedLinear α` : a family, which may be left open, and whether there is an intercept
* `Family.system` : balance and Jacobian for samples
* `GeneralizedLinear.model` : the model
-/

namespace BalanceFit

variable {α : Type}

section Sums

variable [Scalar α] [Transcendental α]

/-- The mean at a sample. -/
def Family.meanAt {p : Nat} (f : Family α) (beta : Vec α p) (s : Sample α p) : α :=
  f.mean (s.row.dot beta)

/-- What a sample contributes to the balance, as a multiple of its row. -/
def Family.residual {p : Nat} (f : Family α) (beta : Vec α p) (s : Sample α p) : α :=
  s.weight * (f.meanAt beta s - s.y)

/-- What a sample contributes to the Jacobian, as a multiple of the square of its row. -/
def Family.curvature {p : Nat} (f : Family α) (beta : Vec α p) (s : Sample α p) : α :=
  s.weight * f.variance (f.meanAt beta s)

/-- The balance and the Jacobian of a family for samples. -/
def Family.system {p : Nat} (f : Family α) (samples : List (Sample α p)) (beta : Vec α p) :
    System α p where
  balance := Design.moment (samples.map fun s => (s.row, f.residual beta s))
  jacobian := Design.gram (samples.map fun s => (s.row, f.curvature beta s))

end Sums

/-- A generalized linear model. -/
structure GeneralizedLinear (α : Type) where
  /-- The family, unless it is left open. -/
  family : Option (Family α)
  /-- Whether a constant one follows every predictor. -/
  intercept : Bool
  deriving DecidableEq, Repr

namespace GeneralizedLinear

/-- The name of the type of the model. -/
def name (g : GeneralizedLinear α) : String :=
  match g.family with
  | some f => f.modelName
  | none => "_GeneralizedLinearModel"

/-- The number of coefficients for predictors of some length. -/
def dim (g : GeneralizedLinear α) (length : Nat) : Nat := length + g.intercept.toNat

/-- The model in writing; `intercept` is the setting as it was given. -/
def summary (g : GeneralizedLinear α) (intercept : String) : String :=
  g.name ++ "(intercept=" ++ intercept ++ ")"

section Evaluation

variable [Scalar α] [Transcendental α]

/-- The balance and the Jacobian over a store, for buffers of size `n`. The coefficients are a
vector as long as the design rows, or columns of that length. -/
def evaluate (g : GeneralizedLinear α) (n : Nat) (store : Store α) (beta : Grid α) :
    Except Fault (System α n) := do
  let v ← store.views
  let p := v.rowLength g.intercept
  let samples := v.samples p g.intercept
  match beta.toVec? p, g.family with
  | some beta, some f =>
    match (f.system samples beta).spread? n with
    | some s => return s
    | none => throw .shapeMismatch
  | some _, none => throw .openMean
  | none, family =>
    match Design.predictors? samples beta, family with
    | none, _ => throw .shapeMismatch
    | some _, none => throw .openMean
    | some eta, some f =>
      match f.columnBalance? samples eta with
      | none => throw .shapeMismatch
      | some balance =>
        let balance ← Vec.ofGrid n balance
        return ⟨balance, ← f.columnJacobian samples eta >>= Mat.ofGrid n⟩

/-- The model that a generalized linear model is. Without a family it has no link. -/
def model (g : GeneralizedLinear α) : Model (Except Fault) α where
  name := g.name
  dim? := some fun o => .ok (.count (g.dim o.x.length))
  link? := g.family.map fun f y => .ok (some (f.link y))
  evaluate? := some fun n store beta _ => g.evaluate n store beta

end Evaluation

end GeneralizedLinear

end BalanceFit
