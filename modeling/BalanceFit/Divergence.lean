/-!
# Why an iteration gives up

## Main definitions

* `Divergence` : the numeric breakdowns that end an iteration
* `Divergence.name`, `Divergence.ofName?` : their names
* `Divergence.text`, `Divergence.ofText?` : their wording, which tells them apart
-/

namespace BalanceFit

/-- A numeric breakdown that ends an iteration. -/
inductive Divergence where
  /-- The starting coefficients hold NaN or an infinity. -/
  | nonFiniteWarmStart
  /-- The balance at an iterate holds NaN or an infinity, or its total overflows. -/
  | nonFiniteBalance
  /-- The Jacobian at an iterate is too small in total, or not finite. -/
  | degenerateJacobian
  /-- The linear system for the step has no unique solution. -/
  | singularSystem
  /-- The solution of the linear system holds NaN or an infinity. -/
  | nonFiniteStep
  deriving DecidableEq, Repr

namespace Divergence

/-- All reasons, in the order in which an iteration can meet them. -/
def all : List Divergence :=
  [nonFiniteWarmStart, nonFiniteBalance, degenerateJacobian, singularSystem, nonFiniteStep]

/-- The name of a reason. -/
def name : Divergence → String
  | nonFiniteWarmStart => "NON_FINITE_WARM_START"
  | nonFiniteBalance => "NON_FINITE_BALANCE"
  | degenerateJacobian => "DEGENERATE_JACOBIAN"
  | singularSystem => "SINGULAR_SYSTEM"
  | nonFiniteStep => "NON_FINITE_STEP"

/-- The wording of a reason in a summary. -/
def text : Divergence → String
  | nonFiniteWarmStart => "non-finite warm start"
  | nonFiniteBalance => "non-finite balance"
  | degenerateJacobian => "degenerate Jacobian"
  | singularSystem => "singular linear system"
  | nonFiniteStep => "non-finite Newton step"

/-- The reason of a name. -/
def ofName? (s : String) : Option Divergence := all.find? fun r => r.name == s

/-- The reason with a wording, letter for letter. -/
def ofText? (s : String) : Option Divergence := all.find? fun r => r.text == s

end Divergence

end BalanceFit
