import BalanceFit.Run
import BalanceFit.Store
import BalanceFit.System

/-!
# Models

A model says how many coefficients it has, transforms responses for the warm start, and computes the
balance and its Jacobian. A value that is offered as a model may lack some of these capabilities; it
can be used as far as they are not needed.

## Main definitions

* `Model m α` : a model whose code runs in a monad `m`
* `Model.isComplete` : whether no capability is missing
* `Model.lift` : a pure model as one that acts
* `Model.withFailingLink` : a model whose link cannot be used
-/

namespace BalanceFit

/-- The code of a model that computes balances: from a store and coefficients, the new contents of a
balance and a Jacobian. Their sizes are those of the buffers. The coefficients are an array, whose
shape need not be one that the model can use. -/
abbrev Evaluation (m : Type → Type) (α : Type) :=
  (n : Nat) → Store α → Grid α → System α n → m (System α n)

/-- A value that is offered as a model. -/
structure Model (m : Type → Type) (α : Type) where
  /-- The name of its type. -/
  name : String
  /-- The number of coefficients for an observation. -/
  dim? : Option (Observation α → m Dimension)
  /-- What a response is turned into for the warm start; it may be no number. -/
  link? : Option (α → m (Option α))
  evaluate? : Option (Evaluation m α)

namespace Model

variable {α σ : Type}

/-- Whether the value has all capabilities of a model. -/
def isComplete {m : Type → Type} (model : Model m α) : Bool :=
  model.dim?.isSome && model.link?.isSome && model.evaluate?.isSome

/-- The number of coefficients. -/
def dim (model : Model (Act σ) α) (o : Observation α) : Act σ Dimension :=
  match model.dim? with
  | some f => f o
  | none => throw .noCapability

/-- The response as the warm start uses it. -/
def link (model : Model (Act σ) α) (y : α) : Act σ (Option α) :=
  match model.link? with
  | some f => f y
  | none => throw .noCapability

/-- The balance and the Jacobian at some coefficients, written over a system. -/
def evaluate (model : Model (Act σ) α) {n : Nat} (store : Store α) (beta : Grid α)
    (buffers : System α n) : Act σ (System α n) :=
  match model.evaluate? with
  | some f => f n store beta buffers
  | none => throw .noCapability

/-- A pure model as one that could act and does not. -/
def lift (model : Model (Except Fault) α) : Model (Act σ) α where
  name := model.name
  dim? := model.dim?.map fun f o => ExceptT.mk (pure (f o))
  link? := model.link?.map fun f y => ExceptT.mk (pure (f y))
  evaluate? := model.evaluate?.map fun f n store beta buffers =>
    ExceptT.mk (pure (f n store beta buffers))

/-- The model with a link that fails for every response. -/
def withFailingLink {m : Type → Type} [MonadExceptOf Fault m] (f : Fault) (model : Model m α) :
    Model m α :=
  { model with link? := some fun _ => throw f }

end Model

end BalanceFit
