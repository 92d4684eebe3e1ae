import BalanceFit.Newton

/-!
# Newton's method from an array of coefficients

The starting coefficients may come as an array of any shape. A vector starts the iteration. A single
value counts as one coefficient as long as no step is taken: the iteration can stop there, but a
step is a vector and cannot be subtracted from it. Coefficients with more axes fit no balance.

## Main definitions

* `Newton.fromValue` : the iteration from a single value
* `Newton.fromGrid` : the iteration from an array
-/

namespace BalanceFit.Newton

variable {α σ : Type} [Scalar α]

/-- The model that is shown the coefficients in another shape. -/
def shownAs (shape : List Nat) (model : Model (Act σ) α) : Model (Act σ) α :=
  { model with
    evaluate? := model.evaluate?.map fun f n store beta buffers =>
      f n store ⟨shape, beta.entries⟩ buffers }

/-- The observer that is told another shape of the coefficients. -/
def toldAs (shape : List Nat) (observer : Observer σ α) : Observer σ α :=
  ⟨fun call _ beta balance => observer.observe call shape beta balance⟩

/-- The iteration from a single value, which has no vector to print. -/
def fromValue (model : Model (Act σ) α) (store : Store α) (config : Config α)
    (observer : Option (Observer σ α)) (b : α) : Run σ α (FitResult (Vec α 1) α) := do
  let p := Progress.start config.history (.replicate 1 b)
  let (beta, s) ← visit (shownAs [] model) store config (observer.map (toldAs [])) 1 p.beta
  let p := p.evaluated beta s.balance.absTotal
  Run.printFrom 1 config.verbosity (.iteration p.evaluations p.absBalance)
  if ← Run.ofExcept (config.verbosity.atLeast 2) then throw .notANumber
  match ← Run.ofExcept (assess config s) with
  | .stop outcome => return p.result outcome
  | .step _ => throw .shapeMismatch

/-- The iteration from an array of coefficients. If they are not finite the model is not evaluated.
-/
def fromGrid (model : Model (Act σ) α) (store : Store α) (config : Config α)
    (observer : Option (Observer σ α)) (beta : Grid α) : Run σ α (FitResult (Grid α) α) := do
  let size := beta.entries.length
  if !beta.entries.all Scalar.isFinite then
    let history := if config.history then some [beta] else none
    return ⟨.diverged .nonFiniteWarmStart, beta, 0, Scalar.nan, history⟩
  match beta.shape, beta.entries with
  | [_], l => (·.map .ofVec) <$> newton model store config observer (.ofList l)
  | [], b :: _ => (·.map fun v => ⟨[], v.toList⟩) <$> fromValue model store config observer b
  | _, _ =>
    let _ ← Run.act (model.evaluate store beta (System.zero (n := size)))
    throw .shapeMismatch

end BalanceFit.Newton
