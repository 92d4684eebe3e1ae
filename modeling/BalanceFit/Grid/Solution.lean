import BalanceFit.Grid.Arithmetic
import BalanceFit.System.Solution

/-!
# Linear systems given as arrays of any shape

The matrix and the right-hand side of a linear system may come as arrays whose shapes have not been
compared. Axes in front of those of a matrix or a right-hand side count several systems, which are
solved one by one.

## Main definitions

* `Grid.leadShape` : the shape that the axes in front of two systems spread over
* `Grid.solveOne` : a single system
* `Grid.solve` : a system, or an array of systems
-/

namespace BalanceFit

/-- The outcome of several solves: all solutions, or the first reason for there being none, a
singular matrix before a solution that is not finite. -/
def LinearSolve.collect {S : Type} (solves : List (LinearSolve S)) : LinearSolve (List S) :=
  let reasons := solves.filterMap (·.reason)
  if .singularSystem ∈ reasons then ⟨none, some .singularSystem⟩
  else match reasons with
    | reason :: _ => ⟨none, some reason⟩
    | [] => ⟨some (solves.filterMap (·.solution)), none⟩

namespace Grid

/-- The most axes that may count systems. -/
def leadLimit : Nat := 32

variable {α : Type} [Scalar α]

/-- A matrix of one entry divides every entry of the right-hand side, of which there may be none. -/
def divide (a : α) (b : Grid α) : LinearSolve (Grid α) :=
  if b.entries.isEmpty then ⟨some b, none⟩
  else .judge (fun g => g.entries.all Scalar.isFinite)
    (if Scalar.isZero a then none else some (b.map (· / a)))

/-- The solve of `a * x = b` for a square matrix, and a vector or a matrix with as many rows. -/
def solveOne (a b : Grid α) : Except Fault (LinearSolve (Grid α)) :=
  match a.shape, b.shape with
  | [n, _], [_] =>
    match a.toMat? n n, b.toVec? n with
    | some a, some b =>
      .ok ((LinearSolve.ofMatrix a (.column b)).map fun x => .ofVec (Mat.firstColumn x))
    | _, _ => .error .shapeMismatch
  | [n, _], [_, c] =>
    match a.toMat? n n, b.toMat? n c with
    | some a, some m =>
      .ok (if c = 0 then ⟨some b, none⟩ else (LinearSolve.ofMatrix a m).map .ofMat)
    | _, _ => .error .shapeMismatch
  | _, _ => .error .shapeMismatch

/-- Whether a matrix of the shape `coreA` is square and has as many rows as a right-hand side of the
shape `coreB`. -/
def coresFit (coreA coreB : List Nat) : Bool :=
  match coreA with
  | [m, n] => m == n && coreB.head? == some n
  | _ => false

/-- The shape that the axes in front of those of the systems spread over. -/
def leadShape (leadA leadB : List Nat) : Except Fault (List Nat) :=
  if leadLimit < max leadA.length leadB.length then .error .tooManyAxes
  else match commonShape? leadA leadB with
    | some lead => .ok lead
    | none => .error .shapeMismatch

/-- The solve of `a * x = b`, where a single value or a list counts as a matrix of one row, and a
single value on the right as a vector. The last two axes are those of the systems; any axes in front
of them spread over each other. If `a` has just one entry there is one system, unless the right-hand
side is empty, and the right-hand side need not have as many rows as the matrix. -/
def solve (a b : Grid α) : Except Fault (LinearSolve (Grid α)) := do
  let a := a.atLeastRows
  let b := b.atLeastVector
  let (leadA, coreA) := splitShape a.shape
  let (leadB, coreB) := splitShape b.shape
  match a.entries with
  | [p] =>
    let lead ← leadShape leadA leadB
    if b.entries.isEmpty ∨ volume lead = 1 then
      return (divide p b).map fun x => ⟨lead ++ coreB, x.entries⟩
    else throw .shapeMismatch
  | _ =>
    if !coresFit coreA coreB then throw .shapeMismatch
    let lead ← leadShape leadA leadB
    match a.spread? (lead ++ coreA), b.spread? (lead ++ coreB) with
    | some a, some b =>
      let solves ← ((a.cells coreA).zip (b.cells coreB)).mapM fun (a, b) => solveOne a b
      return (LinearSolve.collect solves).map fun xs =>
        ⟨lead ++ ((xs.head?.map shape).getD coreB), (xs.map entries).flatten⟩
    | _, _ => throw .shapeMismatch

end Grid

end BalanceFit
