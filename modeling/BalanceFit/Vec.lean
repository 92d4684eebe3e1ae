/-!
# Vectors and matrices of fixed size

A vector keeps its entries in an array and is used as a function on `Fin n`; a matrix is a vector of
rows. Everything is built with `Vec.ofFn`, and two vectors are equal when their entries are
(`Vec.ext`), so a statement about an operation is a statement about one entry.

## Main definitions

* `Vec α n`, `Mat α m n` : vectors and matrices, applied to indices as functions
* `Vec.sum`, `Vec.dot` : sums taken from left to right, starting at zero
* `Vec.toList`, `Vec.ofList`, `Vec.ofListPadded` : the passage to lists of any length
-/

namespace BalanceFit

/-- A vector with `n` entries. -/
structure Vec (α : Type) (n : Nat) where
  toVector : Vector α n
  deriving DecidableEq

/-- A matrix with `m` rows and `n` columns. -/
abbrev Mat (α : Type) (m n : Nat) := Vec (Vec α n) m

namespace Vec

variable {α β γ : Type} {m n : Nat}

/-- The entry at an index; `v i` in short. -/
def get (v : Vec α n) (i : Fin n) : α := v.toVector[i]

instance : CoeFun (Vec α n) (fun _ => Fin n → α) := ⟨get⟩

/-- The vector with the given entries. -/
def ofFn (f : Fin n → α) : Vec α n := ⟨Vector.ofFn f⟩

@[simp] theorem ofFn_apply (f : Fin n → α) (i : Fin n) : ofFn f i = f i := by
  simp [ofFn, get]

@[ext] theorem ext {v w : Vec α n} (h : ∀ i, v i = w i) : v = w := by
  cases v
  cases w
  congr 1
  exact Vector.ext fun i hi => h ⟨i, hi⟩

/-- The vector with one value everywhere. -/
def replicate (n : Nat) (a : α) : Vec α n := ofFn fun _ => a

@[simp] theorem replicate_apply (a : α) (i : Fin n) : replicate n a i = a := by
  simp [replicate]

/-- A function applied to every entry. -/
def map (f : α → β) (v : Vec α n) : Vec β n := ofFn fun i => f (v i)

@[simp] theorem map_apply (f : α → β) (v : Vec α n) (i : Fin n) : v.map f i = f (v i) := by
  simp [map]

/-- A function applied to the entries of two vectors position by position. -/
def zipWith (f : α → β → γ) (v : Vec α n) (w : Vec β n) : Vec γ n := ofFn fun i => f (v i) (w i)

@[simp] theorem zipWith_apply (f : α → β → γ) (v : Vec α n) (w : Vec β n) (i : Fin n) :
    zipWith f v w i = f (v i) (w i) := by
  simp [zipWith]

/-- The index of the first entry. -/
def first : Fin (n + 1) := 0

@[simp] theorem first_eq_zero : (first : Fin (n + 1)) = 0 := rfl

/-- All entries but the first. -/
def tail (v : Vec α (n + 1)) : Vec α n := ofFn fun i => v i.succ

/-- An entry put in front. -/
def cons (a : α) (v : Vec α n) : Vec α (n + 1) := ofFn fun i => Fin.cases a (fun j => v j) i

@[simp] theorem cons_zero (a : α) (v : Vec α n) : cons a v 0 = a := by
  simp [cons]

@[simp] theorem cons_succ (a : α) (v : Vec α n) (i : Fin n) : cons a v i.succ = v i := by
  simp [cons]

/-- The entries with those at `i` and `j` exchanged. -/
def swap (v : Vec α n) (i j : Fin n) : Vec α n :=
  ofFn fun k => if k = i then v j else if k = j then v i else v k

@[simp] theorem swap_apply (v : Vec α n) (i j k : Fin n) :
    v.swap i j k = if k = i then v j else if k = j then v i else v k := by
  simp [swap]

/-- The sum of the entries, from left to right. -/
def sum [Zero α] [Add α] (v : Vec α n) : α := Fin.foldl n (fun acc i => acc + v i) 0

/-- The sum of the products of the entries of two vectors, from left to right. -/
def dot [Zero α] [Add α] [Mul α] (v w : Vec α n) : α := (zipWith (· * ·) v w).sum

/-- Whether a test holds of every entry. -/
def all (p : α → Bool) (v : Vec α n) : Bool := Fin.foldl n (fun acc i => acc && p (v i)) true

/-- The entries in order. -/
def toList (v : Vec α n) : List α := v.toVector.toList

@[simp] theorem length_toList (v : Vec α n) : v.toList.length = n := by
  simp [toList]

@[simp] theorem toList_ofFn (f : Fin n → α) : (ofFn f).toList = List.ofFn f := by
  simp [toList, ofFn, Vector.toList, Vector.ofFn]

/-- The vector of the entries of a list. -/
def ofList (l : List α) : Vec α l.length := ofFn fun i => l[i]

@[simp] theorem ofList_apply (l : List α) (i : Fin l.length) : ofList l i = l[i] := by
  simp [ofList]

@[simp] theorem toList_ofList (l : List α) : (ofList l).toList = l := by
  simp [ofList]

/-- The vector of `n` entries that starts as a list does: surplus entries are dropped and missing
ones are zero. -/
def ofListPadded [Zero α] (n : Nat) (l : List α) : Vec α n := ofFn fun i => l.getD i 0

@[simp] theorem ofListPadded_apply [Zero α] (l : List α) (i : Fin n) :
    ofListPadded n l i = l.getD i 0 := by
  simp [ofListPadded]

@[simp] theorem ofListPadded_toList [Zero α] (v : Vec α n) : ofListPadded n v.toList = v := by
  ext i
  rw [ofListPadded_apply]
  simp [toList, get]

end Vec

namespace Mat

variable {α : Type} {m n : Nat}

/-- The matrix with the given entries. -/
def ofFn (f : Fin m → Fin n → α) : Mat α m n := Vec.ofFn fun i => Vec.ofFn fun j => f i j

@[simp] theorem ofFn_apply (f : Fin m → Fin n → α) (i : Fin m) (j : Fin n) :
    ofFn f i j = f i j := by
  simp [ofFn]

/-- The rows in order. -/
def toLists (a : Mat α m n) : List (List α) := (Vec.map Vec.toList a).toList

/-- The matrix whose column is a vector. -/
def column (v : Vec α n) : Mat α n 1 := ofFn fun i _ => v i

/-- The first column. -/
def firstColumn (a : Mat α m (n + 1)) : Vec α m := Vec.ofFn fun i => a i Vec.first

end Mat

end BalanceFit
