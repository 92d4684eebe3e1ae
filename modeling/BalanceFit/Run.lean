import BalanceFit.Config
import BalanceFit.Trace

/-!
# Computations that act and leave a trace

A fit calls code of its user: a model and perhaps an observer, which may keep a state of their own
and may fail. A fit also leaves a trace, of the lines that it prints and of what it shows to the
observer. State and trace remain when the fit fails later. The user's code has no access to the
trace.

## Main definitions

* `Act σ` : computations that change a user's state and may fail
* `Run σ α` : computations that act and leave a trace
* `Run.act`, `Run.printFrom`, `Run.note` : an act as part of a run, and the two parts of the trace
* `Run.start` : a run from the beginning
-/

namespace BalanceFit

/-- A computation that changes a user's state and may fail. -/
abbrev Act (σ : Type) := ExceptT Fault (StateM σ)

/-- What an observer is shown of an iterate. -/
structure Visit (α : Type) where
  beta : List α
  balance : List α
  deriving DecidableEq, Repr

/-- A user's state, and the trace so far. -/
structure World (σ α : Type) where
  user : σ
  lines : Array (Line α)
  visits : Array (Visit α)

/-- A computation that acts and leaves a trace. -/
abbrev Run (σ α : Type) := ExceptT Fault (StateM (World σ α))

namespace Run

variable {σ α β : Type}

/-- A computation that only fails or gives a result. -/
def ofExcept (x : Except Fault β) : Run σ α β := ExceptT.mk (pure x)

/-- An act as part of a run. -/
def act (a : Act σ β) : Run σ α β := ExceptT.mk fun w =>
  let (r, user) := a.run.run w.user
  (r, { w with user := user })

/-- Prints a line. -/
def print (line : Line α) : Run σ α Unit :=
  modify fun w => { w with lines := w.lines.push line }

/-- Prints a line from level `k` of verbosity on. -/
def printFrom (k : Int) (v : Verbosity) (line : Line α) : Run σ α Unit := do
  if ← ofExcept (v.atLeast k) then print line

/-- Leaves a note of what an observer is shown. -/
def note (visit : Visit α) : Run σ α Unit :=
  modify fun w => { w with visits := w.visits.push visit }

/-- The result of a run that begins in a user's state, and the state and the trace that it leaves.
-/
def start (user : σ) (r : Run σ α β) : Except Fault β × World σ α := r.run.run ⟨user, #[], #[]⟩

end Run

end BalanceFit
