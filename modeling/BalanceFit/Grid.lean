import BalanceFit.Fault
import BalanceFit.Nested
import BalanceFit.Vec

/-!
# Arrays of any shape

Where callers hand over arrays whose shapes have yet to be compared, the arrays are kept as grids: a
shape and the entries in order. An array can be spread over a larger shape by repeating it along
every axis where its length is one.

## Main definitions

* `Grid α` : a shape and entries
* `Grid.checkLengths` : whether there can be an array of given lengths
* `Grid.spread?` : the array repeated to fill a shape
* `Grid.commonShape?` : the shape that two shapes can be spread over
* `Grid.fill?` : the same, where axes of length one in front of the shape are dropped first
* `Grid.toVec?`, `Grid.toMat?` : the vector or matrix, if the array has that shape
-/

namespace BalanceFit

/-- An array: its lengths along each axis, and its entries row by row. -/
structure Grid (α : Type) where
  shape : List Nat
  entries : List α
  deriving DecidableEq, Repr

namespace Grid

variable {α β : Type}

/-- The number of entries of a shape. -/
def volume (shape : List Nat) : Nat := shape.foldr (· * ·) 1

/-- The most axes that an array can have. -/
def axisLimit : Nat := 64

/-- The most entries that there is memory for. Every machine has a bound of its own: an array with
more entries than these, up to the `2 ^ 60` from which on bytes cannot be counted, may or may not
fit elsewhere. -/
def memoryLimit : Nat := Nat.pow 2 32

/-- Whether there can be an array of given lengths: none of them is negative, the bytes that they
take, lengths of zero left aside, can be counted, and there is memory for the entries. -/
def checkLengths (lengths : List Int) : Except Fault Unit :=
  if lengths.any (· < 0) then .error .shapeMismatch
  else if Nat.pow 2 60 ≤ volume ((lengths.map Int.toNat).filter (· ≠ 0)) then
    .error .shapeMismatch
  else if memoryLimit < volume (lengths.map Int.toNat) then .error .outOfMemory
  else .ok ()

/-- The array that a nested list is, if it is one and has no more axes than an array can have. -/
def ofNested? (x : Nested α) : Option (Grid α) :=
  match x.shape? with
  | some s => if s.length ≤ axisLimit then some ⟨s, x.leaves⟩ else none
  | none => none

/-- The array as a nested list. -/
def toNested (g : Grid α) : Nested α := (Nested.ofShape g.shape g.entries).getD (.node [])

/-- The array of one axis. -/
def ofList (l : List α) : Grid α := ⟨[l.length], l⟩

/-- The array of two axes with the entries of a matrix. -/
def ofMat {m n : Nat} (a : Mat α m n) : Grid α := ⟨[m, n], a.toLists.flatten⟩

/-- The array of one axis with the entries of a vector. -/
def ofVec {n : Nat} (v : Vec α n) : Grid α := ⟨[n], v.toList⟩

/-- A function applied to every entry. -/
def map (f : α → β) (g : Grid α) : Grid β := ⟨g.shape, g.entries.map f⟩

/-- The list cut into `count` pieces of `size` entries. -/
def pieces (count size : Nat) (l : List α) : List (List α) :=
  (List.range count).map fun i => (l.drop (i * size)).take size

/-- The entries of an array of shape `source` repeated to fill the shape `target`, which has as many
axes. -/
def stretch? : (source target : List Nat) → List α → Option (List α)
  | [], [], l => some l
  | s :: source, t :: target, l =>
    match (pieces s (volume source) l).mapM (stretch? source target) with
    | none => none
    | some rows =>
      if s = t then some rows.flatten
      else if s = 1 then some (List.replicate t rows.flatten).flatten
      else none
  | _, _, _ => none

/-- The array repeated to fill a shape that may have further axes in front. -/
def spread? (target : List Nat) (g : Grid α) : Option (Grid α) :=
  if g.shape.length ≤ target.length then
    (stretch? (List.replicate (target.length - g.shape.length) 1 ++ g.shape) target g.entries).map
      (⟨target, ·⟩)
  else none

/-- The shape that two shapes spread over: at each axis, counted from the last, the lengths agree or
one of them is one. -/
def commonShape? (s t : List Nat) : Option (List Nat) :=
  let axes := max s.length t.length
  let extend (s : List Nat) := List.replicate (axes - s.length) 1 ++ s
  ((extend s).zip (extend t)).mapM fun (m, n) =>
    if m = n ∨ n = 1 then some m else if m = 1 then some n else none

/-- The shape without axes of length one in front, as long as it has more than `axes` of them. -/
def trimShape (axes : Nat) : List Nat → List Nat
  | [] => []
  | s :: shape => if axes ≤ shape.length ∧ s = 1 then trimShape axes shape else s :: shape

/-- The array as the new contents of an array of the shape `target`. -/
def fill? (target : List Nat) (g : Grid α) : Option (Grid α) :=
  spread? target ⟨trimShape target.length g.shape, g.entries⟩

/-- The vector of the entries, if the array has one axis of the given length. -/
def toVec? [Zero α] (n : Nat) (g : Grid α) : Option (Vec α n) :=
  if g.shape = [n] then some (.ofListPadded n g.entries) else none

@[simp] theorem toVec?_ofVec [Zero α] {n : Nat} (v : Vec α n) : (ofVec v).toVec? n = some v := by
  simp [toVec?, ofVec]

/-- The matrix of the entries, if the array has two axes of the given lengths. -/
def toMat? [Zero α] (m n : Nat) (g : Grid α) : Option (Mat α m n) :=
  if g.shape = [m, n] then
    let entries := g.entries.toArray
    some (.ofFn fun i j => (entries[i * n + j]?).getD 0)
  else none

/-- The array with one axis at least: a single value is a vector of one entry. -/
def atLeastVector (g : Grid α) : Grid α :=
  match g.shape with
  | [] => ⟨[1], g.entries⟩
  | _ => g

/-- The array as rows: a single value is one row of one entry, a vector is one row. -/
def atLeastRows (g : Grid α) : Grid α :=
  match g.shape with
  | [] => ⟨[1, 1], g.entries⟩
  | [n] => ⟨[1, n], g.entries⟩
  | _ => g

/-- The parts of the array along its first axis. -/
def rows (g : Grid α) : List (Grid α) :=
  match g.shape with
  | [] => []
  | n :: shape => (pieces n (volume shape) g.entries).map (⟨shape, ·⟩)

end Grid

end BalanceFit
