import BalanceFit.Grid
import BalanceFit.Scalar

/-!
# Arithmetic on arrays

Two arrays meet entry by entry, each of them spread over the shape in which both fit; or one of them
is changed in place, and the other is spread over it. A matrix multiplies every matrix that the last
two axes of an array make up.

## Main definitions

* `Grid.zipWith?` : a function of the entries of two arrays
* `Grid.update?` : the same in place
* `Grid.cells` : the parts of an array that its last axes make up
* `Mat.times`, `Grid.timesLeft?` : a matrix times a matrix, and times an array of matrices
-/

namespace BalanceFit

variable {α β γ : Type}

/-- The matrix with rows and columns exchanged. -/
def Mat.transpose {m n : Nat} (a : Mat α m n) : Mat α n m := .ofFn fun j i => a i j

/-- The product of two matrices. -/
def Mat.times {m l n : Nat} [Zero α] [Add α] [Mul α] (a : Mat α m l) (b : Mat α l n) : Mat α m n :=
  .ofFn fun i j => (a i).dot (.ofFn fun t => b t j)

namespace Grid

/-- A function applied to the entries of two arrays, which are spread over their common shape. -/
def zipWith? (f : α → β → γ) (g : Grid α) (h : Grid β) : Option (Grid γ) := do
  let shape ← commonShape? g.shape h.shape
  let g ← g.spread? shape
  let h ← h.spread? shape
  return ⟨shape, List.zipWith f g.entries h.entries⟩

/-- The array with its entries changed by those of a second one, which is spread over it. -/
def update? (f : α → β → α) (g : Grid α) (h : Grid β) : Option (Grid α) :=
  (h.spread? g.shape).map fun h => ⟨g.shape, List.zipWith f g.entries h.entries⟩

/-- The array with an axis of length one put in behind the first `k` axes, if it can have one more.
-/
def insertAxis? (k : Nat) (g : Grid α) : Option (Grid α) :=
  if g.shape.length < axisLimit then some ⟨g.shape.take k ++ 1 :: g.shape.drop k, g.entries⟩
  else none

/-- The lengths of all axes but the last two, and those of the last two. -/
def splitShape (shape : List Nat) : List Nat × List Nat := shape.splitAt (shape.length - 2)

/-- The parts of an array that its last axes make up, which have the shape `core`. -/
def cells (core : List Nat) (g : Grid α) : List (Grid α) :=
  let lead := g.shape.take (g.shape.length - core.length)
  (pieces (volume lead) (volume core) g.entries).map (⟨core, ·⟩)

/-- A matrix times every matrix of an array of them. -/
def timesLeft? [Scalar α] {m l : Nat} (a : Mat α m l) (g : Grid α) : Option (Grid α) :=
  match splitShape g.shape with
  | (lead, [rows, k]) =>
    if rows = l then do
      let products ← (g.cells [l, k]).mapM fun c => (c.toMat? l k).map a.times
      return ⟨lead ++ [m, k], (products.map fun c => (ofMat c).entries).flatten⟩
    else none
  | _ => none

end Grid

end BalanceFit
