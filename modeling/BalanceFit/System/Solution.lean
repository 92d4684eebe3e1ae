import BalanceFit.Divergence
import BalanceFit.Fault
import BalanceFit.System.Diagonal
import BalanceFit.System.Elimination

/-!
# Solving the Newton system

A system without a solution is an ordinary event of an iteration, so a solve reports it in its
result and raises no fault. Ill-conditioning alone is no failure: a solution counts if it is finite.

## Main definitions

* `LinearSolve` : the solution of a system, or the reason for there being none
* `LinearSolve.ofMatrix` : a square system with any number of right-hand sides
* `System.newtonStep` : the step that a system asks for
-/

namespace BalanceFit

/-- The outcome of solving a linear system: a solution or the reason for there being none. -/
structure LinearSolve (S : Type) where
  solution : Option S := none
  reason : Option Divergence := none
  deriving DecidableEq, Repr

namespace LinearSolve

variable {α S T : Type} [Scalar α] {n k : Nat}

/-- Whether the solve succeeded. -/
def ok (s : LinearSolve S) : Bool := s.reason.isNone

/-- A function applied to the solution. -/
def map (f : S → T) (s : LinearSolve S) : LinearSolve T := ⟨s.solution.map f, s.reason⟩

/-- The outcome of a solve whose solution, if there is one, must pass the test of being finite. -/
def judge (finite : S → Bool) : Option S → LinearSolve S
  | none => ⟨none, some .singularSystem⟩
  | some x => if finite x then ⟨some x, none⟩ else ⟨none, some .nonFiniteStep⟩

/-- The solve of `a * x = b` for a matrix of right-hand sides. Several equations with one unknown
each need no elimination. -/
def ofMatrix (a : Mat α n n) (b : Mat α n k) : LinearSolve (Mat α n k) :=
  judge Mat.isFinite
    (if 1 < n && a.isDiagonal then Diagonal.solve? a b else Elimination.solve? a b)

end LinearSolve

/-- The solve of `jacobian * x = balance`. The empty system has no matrix that could be solved with.
-/
def System.newtonStep {α : Type} [Scalar α] : {n : Nat} → System α n →
    Except Fault (LinearSolve (Vec α n))
  | 0, _ => .error .shapeMismatch
  | _ + 1, s => .ok ((LinearSolve.ofMatrix s.jacobian (.column s.balance)).map Mat.firstColumn)

end BalanceFit
