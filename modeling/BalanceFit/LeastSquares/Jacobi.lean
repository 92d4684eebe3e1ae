import BalanceFit.LeastSquares
import BalanceFit.Scalar.Double

/-!
# Least squares in doubles

The rotations of Jacobi turn the coordinate axes into an orthonormal basis that the matrix maps to
orthogonal vectors. In this basis every coordinate of the solution is a quotient. Directions that
are mapped to nothing, in comparison with the one that grows most, do not take part, which leaves
the solution of least norm.

## Main definitions

* `Jacobi.Axis` : a direction and what the matrix maps it to
* `Jacobi.axes` : an orthonormal basis with orthogonal images
* `Jacobi.minNorm` : the solution
-/

namespace BalanceFit.Jacobi

variable {n : Nat}

/-- A direction, and the vector that the matrix maps it to. -/
structure Axis (n : Nat) where
  direction : Vec Float n
  image : Vec Float n

/-- The coordinate axes; their images are the columns of the matrix. -/
def coordinates (a : Mat Float n n) : List (Axis n) :=
  (List.finRange n).map fun j =>
    ⟨.ofFn fun i => if i = j then 1 else 0, .ofFn fun i => a i j⟩

/-- Images whose cosine is at most this are orthogonal. -/
def cosineBound : Float := 1e-16

/-- Turns two axes in their plane by the angle with cosine `c` and sine `s`. -/
def turn (c s : Float) (p q : Axis n) : Axis n × Axis n :=
  let first := Vec.zipWith fun x y => c * x - s * y
  let second := Vec.zipWith fun x y => s * x + c * y
  (⟨first p.direction q.direction, first p.image q.image⟩,
    ⟨second p.direction q.direction, second p.image q.image⟩)

/-- Turns two axes in their plane until their images are orthogonal. -/
def orthogonalize (p q : Axis n) : Axis n × Axis n :=
  let pp := p.image.dot p.image
  let qq := q.image.dot q.image
  let pq := p.image.dot q.image
  if pq.abs ≤ cosineBound * Float.sqrt (pp * qq) then (p, q)
  else
    let cotangent := (qq - pp) / (2 * pq)
    let size := 1 / (cotangent.abs + Float.sqrt (1 + cotangent * cotangent))
    let t := if cotangent < 0 then -size else size
    let c := 1 / Float.sqrt (1 + t * t)
    turn c (c * t) p q

/-- Makes the image of one axis orthogonal to those of others, one after the other. -/
def against (p : Axis n) : List (Axis n) → Axis n × List (Axis n)
  | [] => (p, [])
  | q :: rest =>
    let (p, q) := orthogonalize p q
    let (p, rest) := against p rest
    (p, q :: rest)

/-- Treats every pair of axes once, as far as `fuel` axes go. -/
def sweep : (fuel : Nat) → List (Axis n) → List (Axis n)
  | fuel + 1, p :: rest =>
    let (p, rest) := against p rest
    p :: sweep fuel rest
  | _, axes => axes

/-- How many times all pairs are treated; far fewer suffice. -/
def sweeps : Nat := 30

/-- An orthonormal basis whose images are orthogonal. -/
def axes (a : Mat Float n n) : List (Axis n) :=
  (List.range sweeps).foldl (fun l _ => sweep n l) (coordinates a)

/-- A direction counts as mapped to nothing if it grows at most this much, in proportion to the one
that grows most. -/
def rankBound : Float := 1e-13

/-- The exponent of the power of two above the largest magnitude, and whether there is one but zero.
-/
def exponent (l : List Float) : Bool × Int :=
  let top := l.foldl (fun acc x => if acc < x.abs then x.abs else acc) 0
  (top == 0, top.frExp.2)

/-- The solution of least norm, for entries of moderate size. -/
def solve (a : Mat Float n n) (b : Vec Float n) : Vec Float n :=
  let grown := (axes a).map fun p => (p, Float.sqrt (p.image.dot p.image))
  let top := grown.foldl (fun acc (_, r) => if acc < r then r else acc) 0
  grown.foldl (fun x (p, r) =>
    if r ≤ rankBound * top then x
    else
      let coordinate := (p.image.map (· / r)).dot b / r
      Vec.zipWith (fun xi d => xi + coordinate * d) x p.direction)
    (Vec.replicate n 0)

/-- The solution of least norm. Both sides are brought to moderate size by powers of two first,
which is exact. -/
def minNorm (a : Mat Float n n) (b : Vec Float n) : Vec Float n :=
  let (aIsZero, aExponent) := exponent a.toLists.flatten
  let (bIsZero, bExponent) := exponent b.toList
  if aIsZero || bIsZero then Vec.replicate n 0
  else
    let a := Vec.map (Vec.map (Float.scaleB · (-aExponent))) a
    let b := b.map (Float.scaleB · (-bExponent))
    (solve a b).map (Float.scaleB · (bExponent - aExponent))

instance : LeastSquares Float where
  minNorm? a b := some (minNorm a b)

end BalanceFit.Jacobi
