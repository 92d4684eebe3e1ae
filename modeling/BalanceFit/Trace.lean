import BalanceFit.Dimension
import BalanceFit.Outcome

/-!
# What a fit prints

The lines that a fit prints are kept as data until someone wants to read them. A style says how
totals and vectors are written.

## Main definitions

* `Line α` : a printed line
* `Style α` : how the figures in a line are written
* `vectorText` : a vector in braces
* `Line.text` : a line in a style
-/

namespace BalanceFit

/-- A line that a fit prints. -/
inductive Line (α : Type) where
  /-- A fit begins with a warm start from a number of observations. -/
  | warmStartPhase (observations : Nat)
  /-- The coefficients that least squares gives. -/
  | warmStart (beta : List α)
  /-- The coefficients are brought to the length that the model asks for. -/
  | resize (length : Nat) (dim : Dimension)
  /-- The iteration begins. -/
  | iterationPhase (dim : Nat) (maxIter : Nat)
  /-- The model was evaluated for the `k`-th time. -/
  | iteration (k : Nat) (absBalance : α)
  /-- The coefficients at which it was evaluated. -/
  | coefficients (beta : List α)
  /-- The balance there. -/
  | balance (g : List α)
  /-- A Newton step was taken. -/
  | step (absDelta : α)
  /-- Whether the fit converged. -/
  | verdict (success : Bool)
  /-- The message about the result. -/
  | message (s : Summary α)
  deriving DecidableEq, Repr

/-- How the figures in a line are written. -/
structure Style (α : Type) where
  /-- A total, with a number of digits after the point. -/
  magnitude : Nat → α → String
  vector : List α → String

/-- A vector in braces, its entries written by `number`. -/
def vectorText {α : Type} (number : α → String) (v : List α) : String :=
  "\x7b" ++ ", ".intercalate (v.map number) ++ "\x7d"

/-- A count set flush right in four columns. -/
def countText (k : Nat) : String :=
  let s := toString k
  "".pushn ' ' (4 - s.length) ++ s

namespace Line

/-- How many digits after the point totals have in the lines of the iteration. -/
def places : Nat := 4

/-- How many digits after the point totals have in the message about a result. -/
def messagePlaces : Nat := 2

variable {α : Type}

/-- A line in a style. -/
def text (style : Style α) : Line α → String
  | warmStartPhase n => "[newtonfit] Phase 1: Warm start from " ++ toString n ++ " observations"
  | warmStart beta => "    Warm start: " ++ style.vector beta
  | resize length dim =>
    "    Reconciling warm start length " ++ toString length ++ " to dim=" ++ dim.shown
  | iterationPhase dim maxIter =>
    "[newtonfit] Phase 2: Newton iteration (dim=" ++ toString dim ++ ", max_iter=" ++
      toString maxIter ++ ")"
  | iteration k x =>
    "    [Newton] Iteration " ++ countText k ++ ": |balance|=" ++ style.magnitude places x
  | coefficients beta => "    [Newton] beta=" ++ style.vector beta
  | balance g => "    [Newton] balance=" ++ style.vector g
  | step x => "    [Newton] step |delta|=" ++ style.magnitude places x
  | verdict success => "[newtonfit] " ++ if success then "CONVERGED" else "NOT CONVERGED"
  | message s => "    " ++ s.text (style.magnitude messagePlaces) toString

end Line

end BalanceFit
