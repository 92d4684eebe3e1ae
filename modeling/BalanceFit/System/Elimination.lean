import BalanceFit.System

/-!
# Gaussian elimination with partial pivoting

The square system `a * x = b`, for a matrix `b` of right-hand sides, is solved column by column: the
row whose first entry is largest in magnitude is exchanged with the first row and multiples of it
are subtracted from the others, which leaves a smaller system; its solution gives the first unknown.
A pivot that is exactly zero means that the matrix is singular.

## Main definitions

* `Elimination.pivot` : the row with the largest first entry
* `Elimination.solve?` : the solution, unless a pivot is zero
-/

namespace BalanceFit.Elimination

open Vec (first)

variable {α : Type} [Scalar α] {n k : Nat}

/-- The first of the positions whose entry is largest in magnitude. -/
def pivot (column : Vec α (n + 1)) : Fin (n + 1) :=
  Fin.foldl n (fun best i =>
    if Scalar.lt (Scalar.abs (column best)) (Scalar.abs (column i.succ)) then i.succ else best)
    first

/-- The matrix that is left when multiples of the first row have cleared the first column. -/
def reduceMatrix (a : Mat α (n + 1) (n + 1)) : Mat α n n :=
  Mat.ofFn fun i j => a i.succ j.succ - a i.succ first / a first first * a first j.succ

/-- The right-hand sides that go with `reduceMatrix`. -/
def reduceSides (a : Mat α (n + 1) (n + 1)) (b : Mat α (n + 1) k) : Mat α n k :=
  Mat.ofFn fun i c => b i.succ c - a i.succ first / a first first * b first c

/-- The first unknowns, from the first row of the system and the other unknowns. -/
def firstUnknowns (a : Mat α (n + 1) (n + 1)) (b : Mat α (n + 1) k) (x : Mat α n k) : Vec α k :=
  Vec.ofFn fun c =>
    (b first c - Fin.foldl n (fun acc j => acc + a first j.succ * x j c) 0) /
      a first first

/-- The solution of `a * x = b`, or `none` if a pivot is zero. -/
def solve? : {n : Nat} → Mat α n n → Mat α n k → Option (Mat α n k)
  | 0, _, _ => some (Vec.ofFn fun i => i.elim0)
  | _ + 1, a, b =>
    let r := pivot a.firstColumn
    let a := a.swap first r
    let b := b.swap first r
    if Scalar.isZero (a first first) then none
    else (solve? (reduceMatrix a) (reduceSides a b)).map fun x =>
      Vec.cons (firstUnknowns a b x) x

end BalanceFit.Elimination
