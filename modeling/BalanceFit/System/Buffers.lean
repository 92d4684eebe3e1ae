import BalanceFit.Fault
import BalanceFit.Grid
import BalanceFit.System

/-!
# Writing results into buffers

A model writes its balance and its Jacobian over the contents of buffers. What it writes may be a
system of another size, arrays of any shape, or just some of the entries.

## Main definitions

* `System.spread?` : a system as the contents of buffers of some size
* `Vec.ofGrid`, `Mat.ofGrid`, `Vec.ofEntries` : an array as the contents of a buffer
* `Vec.overwrite`, `System.overwrite` : buffers with some entries written over
-/

namespace BalanceFit

variable {α : Type}

/-- A system as the contents of buffers of size `n`: the sizes agree, or a system of one entry fills
the buffers. -/
def System.spread? {k : Nat} (n : Nat) (s : System α k) : Option (System α n) :=
  if h : k = n then some (h ▸ s)
  else if h : k = 1 then
    let i : Fin k := ⟨0, by omega⟩
    some ⟨Vec.replicate n (s.balance i), Vec.replicate n (Vec.replicate n (s.jacobian i i))⟩
  else none

/-- An array as the contents of a vector of size `n`. -/
def Vec.ofGrid [Zero α] (n : Nat) (g : Grid α) : Except Fault (Vec α n) :=
  match (g.fill? [n]).bind (·.toVec? n) with
  | some v => .ok v
  | none => .error .shapeMismatch

/-- An array, given entry by entry, as the contents of a vector of size `n`: it may have no further
axes. -/
def Vec.ofEntries [Zero α] (n : Nat) (g : Grid α) : Except Fault (Vec α n) :=
  match (g.spread? [n]).bind (·.toVec? n) with
  | some v => .ok v
  | none => .error .shapeMismatch

/-- An array as the contents of a square matrix of size `n`. -/
def Mat.ofGrid [Zero α] (n : Nat) (g : Grid α) : Except Fault (Mat α n n) :=
  match (g.fill? [n, n]).bind (·.toMat? n n) with
  | some a => .ok a
  | none => .error .shapeMismatch

/-- A vector with its first entries written over by those of a list. -/
def Vec.overwrite {n : Nat} (l : List α) (v : Vec α n) : Vec α n :=
  .ofFn fun i => (l[i.val]?).getD (v i)

/-- A system with some entries of the balance and of the diagonal of the Jacobian written over. -/
def System.overwrite {n : Nat} (l : List (α × α)) (s : System α n) : System α n where
  balance := s.balance.overwrite (l.map (·.1))
  jacobian := .ofFn fun i j =>
    if i = j then ((l[i.val]?).map (·.2)).getD (s.jacobian i j) else s.jacobian i j

end BalanceFit
