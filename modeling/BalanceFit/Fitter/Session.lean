import BalanceFit.Fitter
import BalanceFit.System.Buffers

/-!
# Sessions with a fitter

A session is a fitter in use: its user adds observations, exchanges the model or the parameters, and
fits as often as wanted. Of what happened before, a fit sees the observations and the state of the
model alone.

## Main definitions

* `Fitter.Command`, `Fitter.Answer` : what a user can ask of a fitter, and the answers
* `Fitter.Session.run` : the effect of one command
-/

namespace BalanceFit.Fitter

variable {α σ : Type}

/-- What a user can ask of a fitter. -/
inductive Command (σ α : Type) where
  | add (x : Except Fault (Grid α)) (y weight : Except Fault α)
  /-- Go on with other parameters. -/
  | configure (config : Except Fault (Config α))
  /-- Go on with another model, complete or not, and the state that it begins in. -/
  | exchange (model : Model (Act σ) α) (user : σ)
  | warmStart
  | solve (observer : Option (Observer σ α))
  /-- Write an array over the coefficients of the last result. -/
  | spoil (value : Except Fault (Grid α))
  /-- Describe the observations. -/
  | observations

/-- What a fitter answers. -/
inductive Answer (α : Type) where
  | nothing
  | coefficients (beta : List α)
  | warmStart (beta : List α) (lines : List (Line α))
  | solved (result : FitResult (List α) α) (visits : List (Visit α)) (lines : List (Line α))
  | observations (text : String)

/-- A fitter in use. -/
structure Session (σ α : Type) where
  fitter : Fitter σ α
  /-- The state that the model and the observers keep. -/
  user : σ
  /-- The coefficients of the last result. -/
  last : Option (List α)

namespace Session

/-- The session that begins with a fitter. -/
def start (fitter : Fitter σ α) (user : σ) : Session σ α := ⟨fitter, user, none⟩

variable [Scalar α] [LeastSquares α]

/-- Carries out a command. -/
def run (t : Session σ α) : Command σ α → Except Fault (Answer α) × Session σ α
  | .add x y weight =>
    match t.fitter.add x y weight with
    | .ok f => (.ok .nothing, { t with fitter := f })
    | .error e => (.error e, t)
  | .configure config =>
    match config with
    | .ok c => (.ok .nothing, { t with fitter := { t.fitter with config := c } })
    | .error e => (.error e, t)
  | .exchange model user =>
    (.ok .nothing, { t with fitter := { t.fitter with model := model }, user := user })
  | .warmStart =>
    let (r, w) := Run.start t.user t.fitter.warmStart
    (r.map fun beta => .warmStart beta w.lines.toList, { t with user := w.user })
  | .solve observer =>
    match Run.start t.user (t.fitter.solve observer) with
    | (.ok r, w) =>
      (.ok (.solved r w.visits.toList w.lines.toList),
        { t with user := w.user, last := some r.beta })
    | (.error e, w) => (.error e, { t with user := w.user })
  | .spoil value =>
    match t.last with
    | some beta =>
      match value >>= Vec.ofEntries beta.length with
      | .ok v => (.ok (.coefficients v.toList), { t with last := some v.toList })
      | .error e => (.error e, t)
    | none => (.error .unknownField, t)
  | .observations => (.ok (.observations t.fitter.store.summary), t)

end Session

end BalanceFit.Fitter
