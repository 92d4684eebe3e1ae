import BalanceFit.Fault
import BalanceFit.Outcome

/-!
# Results of a fit

A result carries the coefficients, how many times the model was evaluated, the total of the last
balance, and, if asked for, all iterates. It can be read by the names of its fields.

## Main definitions

* `FitResult V α` : a result with coefficients of type `V` and totals of type `α`; how many times
  the model was evaluated may be given in any form
* `FitResult.fieldNames` : its fields
* `FitResult.get` : a field, or what is derived from the fields, by name
-/

namespace BalanceFit

/-- The result of a fit. -/
structure FitResult (V α : Type) (N : Type := Nat) where
  outcome : Outcome
  beta : V
  /-- How many times the model was evaluated. -/
  iterations : N
  /-- The sum of the magnitudes of the last balance. -/
  absBalance : α
  /-- The iterates, the starting coefficients first. -/
  history : Option (List V)
  deriving DecidableEq, Repr

/-- What can be read from a result by name. -/
inductive Attribute (V α : Type) (N : Type := Nat) where
  | coefficients (v : V)
  | count (n : N)
  | total (x : α)
  | history (h : Option (List V))
  | reason (r : Divergence)
  | success (b : Bool)
  | message (s : Summary α N)

namespace FitResult

variable {V W α N : Type}

/-- The result with its coefficients in another form. -/
def map (f : V → W) (r : FitResult V α N) : FitResult W α N where
  outcome := r.outcome
  beta := f r.beta
  iterations := r.iterations
  absBalance := r.absBalance
  history := r.history.map (·.map f)

/-- Whether the coefficients can be trusted. -/
def success (r : FitResult V α N) : Bool := r.outcome.success

/-- What the message about the result mentions. -/
def summary (r : FitResult V α N) : Summary α N := ⟨r.outcome, r.iterations, r.absBalance⟩

/-- The names of the fields, in order. -/
def fieldNames (r : FitResult V α N) : List String :=
  ["beta", "n_iter", "abs_balance", "history"] ++
    match r.outcome with
    | .diverged _ => ["reason"]
    | _ => []

/-- The field of a name, or the property of that name. -/
def get (r : FitResult V α N) : String → Except Fault (Attribute V α N)
  | "beta" => .ok (.coefficients r.beta)
  | "n_iter" => .ok (.count r.iterations)
  | "abs_balance" => .ok (.total r.absBalance)
  | "history" => .ok (.history r.history)
  | "success" => .ok (.success r.success)
  | "message" => .ok (.message r.summary)
  | "reason" =>
    match r.outcome with
    | .diverged reason => .ok (.reason reason)
    | _ => .error .unknownField
  | _ => .error .unknownField

end FitResult

end BalanceFit
