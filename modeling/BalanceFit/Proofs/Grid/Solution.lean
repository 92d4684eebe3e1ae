import Mathlib.Algebra.Field.Rat
import Mathlib.Algebra.Order.Field.Basic
import Mathlib.Algebra.Order.Ring.Rat
import Mathlib.LinearAlgebra.Matrix.ToLinearEquiv
import Mathlib.Tactic.NormNum
import BalanceFit.Grid.Solution
import BalanceFit.Proofs.Grid.System
import BalanceFit.Proofs.System.Solved

/-!
# Linear systems in exact arithmetic

A square matrix and a right-hand side that are given as arrays make up one system, and the solve for
arrays is the solve for that system. So in exact arithmetic it reports a singular matrix exactly if
the determinant is zero, and otherwise returns the only solution. A right-hand side without columns
is returned as it is, also if the matrix is singular: there is no equation to solve.

## Main definitions

* `LinearSolve.Decided` : there is either a solution or a reason for there being none

## Main statements

* `Grid.decided_solve` : whatever arrays a solve returns for, its outcome is decided
* `Grid.solve_ofVec`, `Grid.solve_ofMat` : the solve for arrays is that for matrices
* `Grid.solve_exact` : its outcome in exact arithmetic
-/

namespace BalanceFit

namespace LinearSolve

variable {S T : Type} {s : LinearSolve S}

/-- There is either a solution or a reason for there being none, and not both. -/
def Decided (s : LinearSolve S) : Prop := s.solution.isSome = s.reason.isNone

theorem Decided.map (decided : s.Decided) (f : S → T) : (s.map f).Decided := by
  rw [Decided, LinearSolve.map, Option.isSome_map]
  exact decided

theorem decided_judge (finite : S → Bool) (x : Option S) : (judge finite x).Decided := by
  rcases judge_cases finite x with ⟨reason, judged⟩ | ⟨y, judged⟩
  · rw [judged]
    rfl
  · rw [judged]
    rfl

/-- Several solves together are decided, whatever they are. -/
theorem decided_collect (solves : List (LinearSolve S)) : (collect solves).Decided := by
  rw [collect]
  split
  · rfl
  · split <;> rfl

/-- A single solve that is decided is its own collection. -/
theorem collect_singleton (decided : s.Decided) :
    collect [s] = ⟨s.solution.map fun x => [x], s.reason⟩ := by
  obtain ⟨solution, reason⟩ := s
  cases reason with
  | none =>
    obtain ⟨x, rfl⟩ := Option.isSome_iff_exists.1 decided
    rfl
  | some reason =>
    obtain rfl : solution = none :=
      Option.isNone_iff_eq_none.1 (Option.isSome_eq_false_iff.1 decided)
    cases reason <;> rfl

end LinearSolve

namespace Grid

section Arrays

variable {α : Type} {n k : Nat}

theorem length_entries_ofMat (a : Mat α n k) : (ofMat a).entries.length = n * k := by
  rw [ofMat, Mat.flatten_toLists, List.length_ofFn]

/-- An array with the entries of a matrix is that matrix. -/
@[simp] theorem toMat?_ofMat [Zero α] (a : Mat α n k) : (ofMat a).toMat? n k = some a := by
  have shape : (ofMat a).shape = [n, k] := rfl
  rw [toMat?, if_pos shape, Option.some.injEq]
  ext i j
  have number : i.val * k + j.val = (Fin.mkDivMod i j).val :=
    congrArg (· + j.val) (Nat.mul_comm i.val k)
  rw [Mat.ofFn_apply, List.getElem?_toArray, ofMat, Mat.flatten_toLists, number,
    List.getElem?_eq_getElem (by rw [List.length_ofFn]; exact (i.mkDivMod j).isLt),
    Option.getD_some, List.getElem_ofFn, Fin.eta, Fin.divNat_mkDivMod, Fin.modNat_mkDivMod]

/-- An array with no axes but the last ones has one part. -/
theorem cells_self {g : Grid α} (full : g.entries.length = volume g.shape) :
    g.cells g.shape = [g] := by
  rw [cells, Nat.sub_self, List.take_zero]
  change [Grid.mk g.shape ((g.entries.drop (0 * volume g.shape)).take (volume g.shape))] = [g]
  rw [Nat.zero_mul, List.drop_zero, ← full, List.take_length]

/-- A vector or a matrix has no axes in front. -/
theorem splitShape_eq {shape rest : List Nat} (parts : shape = n :: rest)
    (short : rest.length ≤ 1) : splitShape shape = ([], shape) := by
  have few : (n :: rest).length - 2 = 0 := by
    rw [List.length_cons]
    omega
  rw [parts, splitShape, few]
  rfl

theorem full_ofMat (a : Mat α n k) : (ofMat a).entries.length = volume (ofMat a).shape := by
  rw [length_entries_ofMat]
  change n * k = n * (k * 1)
  rw [Nat.mul_one]

theorem full_ofVec (v : Vec α n) : (ofVec v).entries.length = volume (ofVec v).shape :=
  v.length_toList.trans (Nat.mul_one n).symm

end Arrays

section Solves

variable {α : Type} [Scalar α]

theorem decided_divide (p : α) (b : Grid α) : (divide p b).Decided := by
  rw [divide]
  split
  · rfl
  · exact LinearSolve.decided_judge _ _

/-- **The outcome of a solve is decided**, for arrays of all shapes and in every arithmetic. -/
theorem decided_solve {a b : Grid α} {r : LinearSolve (Grid α)} (returned : solve a b = .ok r) :
    r.Decided := by
  rw [solve] at returned
  dsimp only at returned
  split at returned
  case h_1 p _ =>
    obtain ⟨lead, -, returned⟩ := exists_of_bind_eq_ok returned
    split at returned
    · cases returned
      exact (decided_divide _ _).map _
    · cases returned
  case h_2 =>
    -- Where the shapes do not fit nothing is returned.
    split at returned
    · cases returned
    · obtain ⟨lead, -, returned⟩ := exists_of_bind_eq_ok returned
      split at returned
      · obtain ⟨solves, -, returned⟩ := exists_of_bind_eq_ok returned
        cases returned
        exact (LinearSolve.decided_collect solves).map _
      · cases returned

end Solves

section Systems

variable {K : Type} [Field K] [LinearOrder K] {n k : Nat}

theorem solveOne_ofVec (a : Mat K n n) (b : Vec K n) :
    solveOne (ofMat a) (ofVec b) =
      .ok ((LinearSolve.ofMatrix a (.column b)).map fun x => .ofVec x.firstColumn) := by
  have square : (ofMat a).shape = [n, n] := rfl
  have vector : (ofVec b).shape = [n] := rfl
  simp only [solveOne, square, vector, toMat?_ofMat, toVec?_ofVec]

theorem solveOne_ofMat (a : Mat K n n) (b : Mat K n k) :
    solveOne (ofMat a) (ofMat b) =
      .ok (if k = 0 then ⟨some (ofMat b), none⟩ else (LinearSolve.ofMatrix a b).map .ofMat) := by
  have square : (ofMat a).shape = [n, n] := rfl
  have columns : (ofMat b).shape = [n, k] := rfl
  simp only [solveOne, square, columns, toMat?_ofMat]

/-- With several equations there is one system, and it is solved. -/
theorem solve_eq_solveOne {a : Mat K n n} (several : 1 < n) {b : Grid K} {rest : List Nat}
    (shape : b.shape = n :: rest) (short : rest.length ≤ 1)
    (full : b.entries.length = volume b.shape) {r : LinearSolve (Grid K)}
    (solved : solveOne (ofMat a) b = .ok r) (decided : r.Decided) :
    solve (ofMat a) b = .ok r := by
  have rows : (ofMat a).atLeastRows = ofMat a := rfl
  have vector : b.atLeastVector = b := by
    rw [atLeastVector, shape]
  have square : splitShape (ofMat a).shape = ([], (ofMat a).shape) := rfl
  have core := splitShape_eq shape short
  have fit : coresFit (ofMat a).shape b.shape = true := by
    simp [coresFit, ofMat, shape]
  have lead : leadShape [] [] = .ok [] := rfl
  rw [solve]
  dsimp only
  rw [rows, vector, square, core]
  dsimp only
  split
  case h_1 p single =>
    -- There are at least four entries.
    have count := length_entries_ofMat a
    rw [single, List.length_singleton] at count
    nlinarith
  case h_2 =>
    have one : [(ofMat a, b)].mapM (fun s => solveOne s.1 s.2) = .ok [r] := by
      rw [List.mapM_cons, solved]
      rfl
    simp only [fit, lead, Bool.not_true, Bool.false_eq_true, if_false, bind, Except.bind,
      List.nil_append, spread?_self (full_ofMat a), spread?_self full, cells_self (full_ofMat a),
      cells_self full, List.zip_cons_cons, List.zip_nil_left, one,
      LinearSolve.collect_singleton decided]
    obtain ⟨solution, reason⟩ := r
    cases solution with
    | none => rfl
    | some x =>
      change Except.ok (LinearSolve.mk (some (Grid.mk x.shape (x.entries ++ []))) reason) = _
      rw [List.append_nil]

/-- For a single equation elimination is a quotient, if the coefficient is not zero. -/
theorem ofMatrix_single (a : Mat K 1 1) (b : Mat K 1 k) :
    LinearSolve.ofMatrix a b =
      if a 0 0 = 0 then ⟨none, some .singularSystem⟩
      else ⟨some (Vec.map (Vec.map (· / a 0 0)) b), none⟩ := by
  have stays (i j : Fin 1) {β : Type} (v : Vec β 1) : v.swap i j = v := by
    ext l
    rw [Vec.swap_eq_apply, Subsingleton.elim (Equiv.swap i j l) l]
  have quotients (x : Mat K 0 k) :
      Vec.cons (Elimination.firstUnknowns a b x) x = Vec.map (Vec.map (· / a 0 0)) b := by
    ext i c
    refine Fin.cases ?_ (fun j => j.elim0) i
    rw [Vec.cons_zero, Elimination.firstUnknowns, Vec.ofFn_apply, Fin.foldl_zero, sub_zero,
      Vec.first_eq_zero, Vec.map_apply, Vec.map_apply]
  rw [LinearSolve.ofMatrix, if_neg (by simp), Elimination.solve?]
  simp only [stays, Vec.first_eq_zero, Scalar.isZero_iff, Elimination.solve?, Option.map_some,
    quotients]
  split
  · rfl
  · exact if_pos (Mat.isFinite_eq_true _)

/-- In exact arithmetic every quotient by a number other than zero is finite. -/
theorem divide_eq (p : K) (b : Grid K) :
    divide p b =
      if b.entries = [] then ⟨some b, none⟩
      else if p = 0 then ⟨none, some .singularSystem⟩ else ⟨some (b.map (· / p)), none⟩ := by
  simp only [divide, List.isEmpty_iff, Scalar.isZero_iff]
  split
  · rfl
  · split
    · rfl
    · exact if_pos (List.all_eq_true.2 fun x _ => Scalar.isFinite_eq_true x)

/-- With one equation there is a division. -/
theorem solve_eq_divide (a : Mat K 1 1) {b : Grid K} {rest : List Nat} (shape : b.shape = 1 :: rest)
    (short : rest.length ≤ 1) : solve (ofMat a) b = .ok (divide (a 0 0) b) := by
  have rows : (ofMat a).atLeastRows = ofMat a := rfl
  have vector : b.atLeastVector = b := by
    rw [atLeastVector, shape]
  have square : splitShape (ofMat a).shape = ([], (ofMat a).shape) := rfl
  have core := splitShape_eq shape short
  have single : (ofMat a).entries = [a 0 0] := by
    rw [ofMat, Mat.flatten_toLists]
    rfl
  have lead : leadShape [] [] = .ok [] := rfl
  have alone : volume [] = 1 := rfl
  rw [solve]
  dsimp only
  rw [rows, vector, square, core, single]
  simp only [lead, bind, Except.bind, alone, or_true, if_true]
  refine congrArg Except.ok ?_
  rw [divide_eq]
  split
  · rfl
  · split <;> rfl

/-- A system whose right-hand side is a vector is solved as it is. -/
theorem solve_ofVec (nonempty : 0 < n) (a : Mat K n n) (b : Vec K n) :
    solve (ofMat a) (ofVec b) =
      .ok ((LinearSolve.ofMatrix a (.column b)).map fun x => .ofVec x.firstColumn) := by
  have shape : (ofVec b).shape = n :: [] := rfl
  obtain several | rfl : 1 < n ∨ n = 1 := by omega
  · exact solve_eq_solveOne several shape (Nat.zero_le 1) (full_ofVec b) (solveOne_ofVec a b)
      ((LinearSolve.decided_judge _ _).map _)
  · have some_left : (ofVec b).entries ≠ [] :=
      List.ne_nil_of_length_pos (b.length_toList.symm ▸ Nat.one_pos)
    rw [solve_eq_divide a shape (Nat.zero_le 1), divide_eq, if_neg some_left, ofMatrix_single]
    split
    · rfl
    · refine congrArg Except.ok (congrArg (LinearSolve.mk · none) (congrArg some ?_))
      rw [map_ofVec]
      refine congrArg ofVec (Vec.ext fun i => ?_)
      simp only [Mat.firstColumn, Mat.column, Vec.ofFn_apply, Mat.ofFn_apply, Vec.map_apply]

/-- So is one whose right-hand side is a matrix, unless the matrix has no columns. -/
theorem solve_ofMat (nonempty : 0 < n) (a : Mat K n n) (b : Mat K n k) :
    solve (ofMat a) (ofMat b) =
      .ok (if k = 0 then ⟨some (ofMat b), none⟩ else (LinearSolve.ofMatrix a b).map .ofMat) := by
  have shape : (ofMat b).shape = n :: [k] := rfl
  obtain several | rfl : 1 < n ∨ n = 1 := by omega
  · refine solve_eq_solveOne several shape le_rfl (full_ofMat b) (solveOne_ofMat a b) ?_
    split
    · rfl
    · exact (LinearSolve.decided_judge _ _).map _
  · have columns : (ofMat b).entries = [] ↔ k = 0 := by
      rw [← List.length_eq_zero_iff, length_entries_ofMat, Nat.one_mul]
    rw [solve_eq_divide a shape le_rfl, divide_eq, if_congr columns rfl rfl, ofMatrix_single]
    split
    · rfl
    · split
      · rfl
      · rw [map_ofMat]
        rfl

variable [IsStrictOrderedRing K]

open Matrix

/-- A singular matrix is reported, and a regular one leaves one solution. -/
theorem ofMatrix_exact (a : Mat K n n) (b : Mat K n k) :
    (LinearSolve.ofMatrix a b = ⟨none, some .singularSystem⟩ ↔ a.toMatrix.det = 0) ∧
      (a.toMatrix.det ≠ 0 → ∃ x, LinearSolve.ofMatrix a b = ⟨some x, none⟩ ∧
        ∀ y : Matrix (Fin n) (Fin k) K, a.toMatrix * y = b.toMatrix ↔ y = x.toMatrix) := by
  rw [← Mat.isSingular_iff_det_eq_zero, ne_eq, ← Mat.isSingular_iff_det_eq_zero]
  rcases LinearSolve.ofMatrix_cases a b with ⟨⟨x, solved⟩, regular⟩ | ⟨failed, singular⟩
  · rw [solved]
    refine ⟨iff_of_false nofun regular, fun _ => ⟨x, rfl, fun y => ?_⟩⟩
    have equation : a.toMatrix * x.toMatrix = b.toMatrix := by
      ext i c
      exact LinearSolve.sum_mul_of_ofMatrix (congrArg LinearSolve.solution solved) i c
    have unit : IsUnit a.toMatrix.det :=
      isUnit_iff_ne_zero.2 (mt Mat.isSingular_iff_det_eq_zero.2 regular)
    have inverse := a.toMatrix.invertibleOfIsUnitDet unit
    rw [← equation]
    exact mul_right_inj_of_invertible a.toMatrix
  · exact ⟨iff_of_true failed singular, fun regular => absurd singular regular⟩

/-- A failure for the whole system is one for the array. -/
theorem map_eq_singular_iff {S T : Type} (s : LinearSolve S) (f : S → T) :
    s.map f = ⟨none, some .singularSystem⟩ ↔ s = ⟨none, some .singularSystem⟩ := by
  obtain ⟨solution, reason⟩ := s
  cases solution with
  | none =>
    rw [LinearSolve.map, Option.map_none, LinearSolve.mk.injEq, LinearSolve.mk.injEq]
    exact and_congr_left' (iff_of_true rfl rfl)
  | some x =>
    have solved {U : Type} (y : U) : some y ≠ none := Option.some_ne_none y
    exact iff_of_false (fun same => solved (f x) (congrArg LinearSolve.solution same))
      fun same => solved x (congrArg LinearSolve.solution same)

/-- **Solves are exact, and so are their failures.** For a vector, and for a matrix with at least
one column, a solve fails exactly if the matrix is singular; otherwise it returns the only solution.
A right-hand side without columns is returned as it is. On every return there is either a solution
or a reason. Matrix and right-hand side are values, so a solve leaves them as they were. -/
theorem solve_exact (nonempty : 0 < n) (a : Mat K n n) :
    (∀ b : Vec K n,
      (solve (ofMat a) (ofVec b) = .ok ⟨none, some .singularSystem⟩ ↔ a.toMatrix.det = 0) ∧
      (a.toMatrix.det ≠ 0 → ∃ x : Vec K n,
        solve (ofMat a) (ofVec b) = .ok ⟨some (ofVec x), none⟩ ∧
          ∀ y : Fin n → K, a.toMatrix *ᵥ y = (b ·) ↔ y = (x ·))) ∧
    (∀ (k : Nat) (b : Mat K n (k + 1)),
      (solve (ofMat a) (ofMat b) = .ok ⟨none, some .singularSystem⟩ ↔ a.toMatrix.det = 0) ∧
      (a.toMatrix.det ≠ 0 → ∃ x : Mat K n (k + 1),
        solve (ofMat a) (ofMat b) = .ok ⟨some (ofMat x), none⟩ ∧
          ∀ y : Matrix (Fin n) (Fin (k + 1)) K, a.toMatrix * y = b.toMatrix ↔ y = x.toMatrix)) ∧
    (∀ b : Mat K n 0, solve (ofMat a) (ofMat b) = .ok ⟨some (ofMat b), none⟩) ∧
    ∀ (b : Grid K) (r : LinearSolve (Grid K)), solve (ofMat a) b = .ok r → r.Decided := by
  refine ⟨fun b => ?_, fun k b => ?_, fun b => solve_ofMat nonempty a b,
    fun b r => decided_solve⟩
  · obtain ⟨fails, solves⟩ := ofMatrix_exact a (.column b)
    rw [solve_ofVec nonempty, Except.ok.injEq, map_eq_singular_iff]
    refine ⟨fails, fun regular => ?_⟩
    obtain ⟨x, solved, only⟩ := solves regular
    rw [solved]
    refine ⟨x.firstColumn, rfl, fun y => ?_⟩
    -- Of a matrix with one column the first column is all.
    have column : replicateCol (Fin 1) (x.firstColumn ·) = x.toMatrix := by
      ext i c
      rw [replicateCol_apply, Mat.toMatrix_apply, Mat.firstColumn, Vec.ofFn_apply]
      exact congrArg (x i) (Subsingleton.elim _ c)
    have side : (Mat.column b).toMatrix = replicateCol (Fin 1) (b ·) := by
      ext i c
      rw [replicateCol_apply, Mat.toMatrix_apply, Mat.column, Mat.ofFn_apply]
    rw [← replicateCol_inj (ι := Fin 1), replicateCol_mulVec, ← side, only, ← column,
      replicateCol_inj]
  · obtain ⟨fails, solves⟩ := ofMatrix_exact a b
    rw [solve_ofMat nonempty, if_neg k.succ_ne_zero, Except.ok.injEq, map_eq_singular_iff]
    refine ⟨fails, fun regular => ?_⟩
    obtain ⟨x, solved, only⟩ := solves regular
    rw [solved]
    exact ⟨x, rfl, only⟩

omit [LinearOrder K] [IsStrictOrderedRing K] in
/-- The pivot of the first column is in the second row. -/
theorem solve_exact_exchanged :
    let a : Mat ℚ 2 2 := .ofFn !![0, 1; 2, 3]
    0 < 2 ∧ solve (ofMat a) (ofVec (.ofFn ![1, 5])) = .ok ⟨some (ofVec (.ofFn ![1, 1])), none⟩ := by
  intro a
  have matrix : a.toMatrix = !![0, 1; 2, 3] := by
    ext i j
    exact Mat.ofFn_apply _ i j
  have regular : a.toMatrix.det ≠ 0 := by
    rw [matrix, det_fin_two_of]
    norm_num
  obtain ⟨x, solved, only⟩ := ((solve_exact two_pos a).1 (.ofFn ![1, 5])).2 regular
  have ones : ![1, 1] = (x ·) := by
    refine (only ![1, 1]).1 ?_
    rw [matrix]
    simp only [Vec.ofFn_apply]
    decide +kernel
  refine ⟨two_pos, ?_⟩
  rw [solved, ones]
  refine congrArg Except.ok (congrArg (LinearSolve.mk · none) (congrArg some (congrArg ofVec ?_)))
  exact Vec.ext fun i => (Vec.ofFn_apply _ i).symm

omit [LinearOrder K] [IsStrictOrderedRing K] in
/-- There is no report of a singular matrix if the right-hand side has no columns. -/
theorem solve_columnless :
    let a : Mat ℚ 2 2 := .ofFn !![1, 2; 2, 4]
    let b : Mat ℚ 2 0 := .ofFn ![![], ![]]
    a.toMatrix.det = 0 ∧ solve (ofMat a) (ofMat b) = .ok ⟨some (ofMat b), none⟩ := by
  intro a b
  have matrix : a.toMatrix = !![1, 2; 2, 4] := by
    ext i j
    exact Mat.ofFn_apply _ i j
  refine ⟨?_, solve_ofMat two_pos a b⟩
  rw [matrix, det_fin_two_of]
  norm_num

end Systems

end Grid

end BalanceFit
