import Mathlib.Data.List.OfFn
import Mathlib.Tactic.Ring
import BalanceFit.Grid.System
import BalanceFit.Proofs.Scalar.Field

/-!
# Systems whose arrays have the right shapes

An array that is spread over its own shape stays as it is. So a ridge for arrays of any shape does
to a vector and a square matrix what it does to a system, and has no fault to report; and so does a
scaling.

## Main statements

* `Grid.spread?_self` : an array fills its own shape
* `Grid.regularize_eq` : the ridge for arrays is the one for systems
* `Grid.scaling?_ofMat`, `Grid.scale_ofVec`, `Grid.scale_ofMat` : and so is the scaling
-/

namespace BalanceFit

variable {α : Type}

/-- Two computations in a row return only if both do. -/
theorem exists_of_bind_eq_ok {β γ : Type} {x : Except Fault β} {f : β → Except Fault γ} {r : γ}
    (returned : x >>= f = .ok r) : ∃ y, x = .ok y ∧ f y = .ok r := by
  cases x with
  | error e => cases returned
  | ok y => exact ⟨y, rfl, returned⟩

/-- The entries of a matrix row by row. -/
theorem Mat.flatten_toLists {m n : Nat} (a : Mat α m n) :
    a.toLists.flatten = List.ofFn fun k : Fin (m * n) => a k.divNat k.modNat := by
  rw [toLists, Vec.toList_eq_ofFn, List.ofFn_mul]
  refine congrArg List.flatten (congrArg List.ofFn (funext fun i => ?_))
  rw [Vec.map_apply, Vec.toList_eq_ofFn]
  refine congrArg List.ofFn (funext fun j => ?_)
  have place (bound : i * n + j < m * n) : (⟨i * n + j, bound⟩ : Fin (m * n)) = Fin.mkDivMod i j :=
    Fin.ext (congrArg (· + j.val) (Nat.mul_comm i n))
  rw [place, Fin.divNat_mkDivMod, Fin.modNat_mkDivMod]

namespace Grid

/-- The pieces of a list make up its beginning. -/
theorem flatten_pieces (count size : Nat) (l : List α) :
    (pieces count size l).flatten = l.take (count * size) := by
  induction count with
  | zero => rw [Nat.zero_mul, List.take_zero]; rfl
  | succ count ih =>
    rw [pieces, List.range_succ, List.map_append, List.flatten_append, Nat.succ_mul, List.take_add,
      ← ih, List.map_singleton, List.flatten_singleton]
    rfl

theorem length_of_mem_pieces {count size : Nat} {l piece : List α}
    (enough : count * size ≤ l.length) (member : piece ∈ pieces count size l) :
    piece.length = size := by
  obtain ⟨i, bound, rfl⟩ := List.mem_map.1 member
  have before : (i + 1) * size ≤ count * size :=
    Nat.mul_le_mul_right size (List.mem_range.1 bound)
  rw [List.length_take, List.length_drop]
  rw [Nat.succ_mul] at before
  omega

/-- A function that keeps every row keeps the list of rows. -/
theorem mapM_eq_some_self {f : List α → Option (List α)} {rows : List (List α)}
    (fixed : ∀ row ∈ rows, f row = some row) : rows.mapM f = some rows := by
  induction rows with
  | nil => rfl
  | cons row rows ih =>
    rw [List.mapM_cons, fixed row List.mem_cons_self,
      ih fun other member => fixed other (List.mem_cons_of_mem row member)]
    rfl

/-- Entries that are stretched to the shape that they have stay as they are. -/
theorem stretch?_self (shape : List Nat) {l : List α} (full : l.length = volume shape) :
    stretch? shape shape l = some l := by
  induction shape generalizing l with
  | nil => rfl
  | cons s shape ih =>
    have total : l.length = s * volume shape := full
    have rows : (pieces s (volume shape) l).mapM (stretch? shape shape) =
        some (pieces s (volume shape) l) :=
      mapM_eq_some_self fun row member => ih (length_of_mem_pieces total.ge member)
    rw [stretch?, rows]
    dsimp only
    rw [if_pos rfl, flatten_pieces, ← total, List.take_length]

/-- An array fills its own shape. -/
theorem spread?_self {g : Grid α} (full : g.entries.length = volume g.shape) :
    g.spread? g.shape = some g := by
  rw [spread?, if_pos le_rfl, Nat.sub_self, List.replicate_zero, List.nil_append,
    stretch?_self _ full]
  rfl

/-- In a square matrix of size `n` the entries of the diagonal are `n + 1` places apart. -/
theorem mod_eq_zero_iff {n k : Nat} (bound : k < n * n) : k % (n + 1) = 0 ↔ k / n = k % n := by
  have positive : 0 < n := Nat.pos_of_mul_pos_left (Nat.zero_lt_of_lt bound)
  have row : k / n < n := Nat.div_lt_of_lt_mul bound
  have column : k % n < n := Nat.mod_lt k positive
  have place : n * (k / n) + k % n = k := Nat.div_add_mod k n
  generalize k / n = q at row place ⊢
  generalize k % n = r at column place ⊢
  subst place
  rcases Nat.lt_or_ge r q with below | above
  · -- Below the diagonal a row is completed beyond a multiple of the distance.
    obtain ⟨d, rfl⟩ := Nat.exists_eq_add_of_lt below
    obtain ⟨e, rfl⟩ := Nat.exists_eq_add_of_le (show d ≤ n by omega)
    have split : (d + e) * (r + d + 1) + r = (d + e + 1) * (r + d) + e := by ring
    rw [split, Nat.mul_add_mod, Nat.mod_eq_of_lt (by omega)]
    omega
  · obtain ⟨d, rfl⟩ := Nat.exists_eq_add_of_le above
    have split : n * q + (q + d) = (n + 1) * q + d := by ring
    rw [split, Nat.mul_add_mod, Nat.mod_eq_of_lt (by omega)]
    omega

section Vectors

variable {β γ : Type} {n : Nat}

theorem map_ofVec (f : α → β) (v : Vec α n) : (ofVec v).map f = ofVec (v.map f) := by
  rw [map, ofVec, ofVec, Vec.toList_eq_ofFn, Vec.toList_eq_ofFn, List.map_ofFn]
  simp only [Vec.map_apply, Function.comp_def]

theorem map_ofMat (f : α → β) {k : Nat} (a : Mat α n k) :
    (ofMat a).map f = ofMat (Vec.map (Vec.map f) a) := by
  rw [map, ofMat, ofMat, Mat.flatten_toLists, Mat.flatten_toLists, List.map_ofFn]
  simp only [Vec.map_apply, Function.comp_def]

/-- A vector is updated entry by entry by a vector of its length. -/
theorem update?_ofVec (f : α → β → α) (v : Vec α n) (w : Vec β n) :
    (ofVec v).update? f (ofVec w) = some (ofVec (Vec.zipWith f v w)) := by
  have own : (ofVec w).spread? [n] = some (ofVec w) :=
    spread?_self (w.length_toList.trans (Nat.mul_one n).symm)
  have entries : List.zipWith f v.toList w.toList = (Vec.zipWith f v w).toList := by
    rw [Vec.toList_eq_ofFn, Vec.toList_eq_ofFn, Vec.toList_eq_ofFn]
    refine List.ext_getElem (by simp) fun k before after => ?_
    rw [List.getElem_zipWith, List.getElem_ofFn, List.getElem_ofFn, List.getElem_ofFn,
      Vec.zipWith_apply]
  rw [update?, ofVec, own, Option.map_some]
  exact congrArg (fun l => some (Grid.mk [n] l)) entries

end Vectors

variable [Scalar α] {n : Nat}

/-- A square matrix has a diagonal to add a number to. -/
theorem addDiagonal_ofMat (a : Mat α n n) (d : α) :
    (ofMat a).addDiagonal d =
      .ok (ofMat (.ofFn fun i j => if i = j then a i j + d else a i j)) := by
  have square : ([n].all (· == n)) = true := by simp
  have stride : diagonalStride n 2 = n + 1 := by
    simp [diagonalStride, List.range_succ, Nat.add_comm]
  have bounded : 2 < axisLimit := by decide
  rw [addDiagonal, ofMat]
  simp only [square, if_true, List.length_nil, Nat.zero_add, bounded, stride]
  congr 2
  rw [Mat.flatten_toLists, Mat.flatten_toLists]
  refine List.ext_getElem (by simp) fun k before after => ?_
  have bound : k < n * n := by simpa using after
  rw [List.getElem_mapIdx, List.getElem_ofFn, List.getElem_ofFn, Mat.ofFn_apply]
  refine if_congr ?_ rfl rfl
  rw [mod_eq_zero_iff bound, Fin.ext_iff]
  rfl

/-- The ridge for arrays is the one for systems if they are a vector and a square matrix. -/
theorem regularize_eq (epsilon : α) (b : Vec α n) (s : System α n) :
    regularize (.ok epsilon) (.ofVec b) (.ofVec s.balance) (.ofMat s.jacobian) =
      ⟨.ofVec (s.regularize epsilon b).balance, .ofMat (s.regularize epsilon b).jacobian,
        none⟩ := by
  have balance : Vec.zipWith (· + ·) s.balance (b.map ((2 : Nat) * epsilon * ·)) =
      (s.regularize epsilon b).balance := by
    ext i
    rw [Vec.zipWith_apply, Vec.map_apply, System.regularize_balance_apply]
  rw [regularize, map_ofVec, update?_ofVec, balance, addDiagonal_ofMat]
  rfl

/-- The factor for arrays is the one for systems if the array is a square matrix. -/
theorem scaling?_ofMat (tol : α) (a : Mat α n n) :
    scaling? (.ok tol) (ofMat a) = Scaling.ofJacobian? tol a := by
  rw [Scaling.ofJacobian?, Scaling.ofTotal?]
  change (if !Scalar.isFinite a.absTotal then _ else Scaling.ofTotal? tol n a.absTotal) = _
  cases finite : Scalar.isFinite a.absTotal with
  | false => rfl
  | true => simp only [Scaling.ofTotal?, finite, Bool.not_true, Bool.false_eq_true, if_false,
      Bool.false_or]

theorem scale_ofVec (c : Scaling α) (s : System α n) :
    (ofVec s.balance).scale c = ofVec (c.apply s).balance :=
  map_ofVec (· * c.factor) s.balance

theorem scale_ofMat (c : Scaling α) (s : System α n) :
    (ofMat s.jacobian).scale c = ofMat (c.apply s).jacobian :=
  map_ofMat (· * c.factor) s.jacobian

end Grid

end BalanceFit
