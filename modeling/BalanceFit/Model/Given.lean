import BalanceFit.Model
import BalanceFit.Value

/-!
# Models without sums over observations

Besides the generalized linear models there are models that share the choice of a link and of the
number of coefficients and differ in what they evaluate, and models that compute nothing or lack
capabilities.

## Main definitions

* `Link ν` : the transformations of responses to choose from
* `Value.lengthFault` : what is wrong with a value as a length
* `Dimension.ofValue` : a number of coefficients as a caller gives it
* `Model.given` : the model with a given evaluation
* `Model.blank`, `Model.lacking`, `Model.stranger` : models that compute nothing, or lack
  capabilities
-/

namespace BalanceFit

variable {α : Type}

/-- A transformation of responses, where `ν` is the form in which a value is given. -/
inductive Link (ν : Type) where
  | identity
  | log
  /-- One value for every response. -/
  | const (value : ν)

/-- The transformed response. The value of a constant link comes as far as it is a number. -/
def Link.apply [Transcendental α] : Link (Except Fault α) → α → Except Fault α
  | identity, y => .ok y
  | log, y => .ok (Transcendental.log y)
  | const value, _ => value

/-- The model with a given link and evaluation. It has `dim` coefficients, or as many as the
predictors are long. -/
def Model.given [Transcendental α] {m : Type → Type} [Monad m] [MonadExceptOf Fault m]
    (name : String) (dim : Option Dimension) (link : Link (Except Fault α))
    (evaluation : Evaluation m α) : Model m α where
  name := name
  dim? := some fun o => pure (dim.getD (.count o.x.length))
  link? := some fun y =>
    match link.apply y with
    | .ok y => pure (some y)
    | .error f => throw f
  evaluate? := some evaluation

/-- The length of an axis: a whole number that is counted in 64 bits. -/
def Value.axisLength : Value → Except Fault Int
  | .leaf (.whole n) => if n.natAbs < Nat.pow 2 63 then .ok n else .error .shapeMismatch
  | _ => .error .notANumber

/-- The fault of an array whose length is no whole number. A list would be the lengths of several
axes, and is wrong as one length even if there can be such an array. -/
def Value.lengthFault : Value → Fault
  | .leaf _ => .notANumber
  | .node vs =>
    if Grid.axisLimit < vs.length then .shapeMismatch
    else match vs.mapM Value.axisLength >>= Grid.checkLengths with
      | .ok () => .notANumber
      | .error f => f

/-- The number of coefficients that a caller gives. -/
def Dimension.ofValue : Value → Dimension
  | .leaf (.whole n) => .count n
  | v => .other v.shown v.wholeNumber? v.lengthFault

/-- The model of which nothing but the outline exists: it tells no number, and computes nothing. -/
def Model.blank : Model (Except Fault) α where
  name := "Default"
  dim? := some fun _ => .ok (.ofValue (.leaf .nothing))
  link? := some fun _ => .ok none
  evaluate? := some fun _ _ _ buffers => .ok buffers

/-- The capabilities of a model. -/
inductive Capability where
  | dim
  | link
  | evaluate
  deriving DecidableEq, Repr

/-- A model that lacks some capabilities. It has one coefficient, turns every response into one, and
computes nothing. -/
def Model.lacking [One α] (missing : List Capability) : Model (Except Fault) α where
  name := "Partial"
  dim? := if .dim ∈ missing then none else some fun _ => .ok (.count 1)
  link? := if .link ∈ missing then none else some fun _ => .ok (some 1)
  evaluate? := if .evaluate ∈ missing then none else some fun _ _ _ buffers => .ok buffers

/-- A value of some type that has nothing to do with models. -/
def Model.stranger (name : String) : Model (Except Fault) α := ⟨name, none, none, none⟩

end BalanceFit
