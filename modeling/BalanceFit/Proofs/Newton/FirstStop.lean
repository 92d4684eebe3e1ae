import Mathlib.Algebra.BigOperators.Fin
import Mathlib.Algebra.Field.Rat
import Mathlib.Algebra.Order.Field.Basic
import Mathlib.Algebra.Order.Ring.Rat
import BalanceFit.Proofs.Newton.Visit
import BalanceFit.Proofs.Scalar.Field
import BalanceFit.Proofs.Scalar.Zero

/-!
# The iteration stops at the first stopping point of Newton's sequence

Newton's sequence knows no tests: every iterate is the one before it less the solution of the linear
system there. The tests are put to the systems along the sequence, and the iteration is shown to end
at the first iterate at which one of them stops it, with the outcome, the count and the coefficients
that belong to that test.

## Main definitions

* `System.scaledSolve` : the linear solve for a step
* `Newton.ideal` : the sequence
* `Newton.stop?` : what the tests say of a system
* `Newton.firstStop` : the result that belongs to the first stop along the sequence

## Main statements

* `Newton.assess_cases` : a system is assessed as the tests say
* `Newton.exists_iterate_reached` : from any iterate of the sequence on, the iteration returns what
  belongs to the first stop from there
* `Newton.start_newton_of_finite`, `Newton.newton_eq_firstStop` : so it does from the start
-/

namespace BalanceFit

variable {α σ : Type} [Scalar α] {n : Nat}

/-- The solve of a system, both sides of which are multiplied by `n² / ∑ |J|`. -/
def System.scaledSolve (s : System α n) : LinearSolve (Vec α n) :=
  let scaled := (Scaling.mk (((n * n : Nat) : α) / s.jacobian.absTotal)).apply s
  (LinearSolve.ofMatrix scaled.jacobian (.column scaled.balance)).map Mat.firstColumn

/-- A solve that was judged has either a reason for its failure or a solution. -/
theorem LinearSolve.judge_cases {S : Type} (finite : S → Bool) (x : Option S) :
    (∃ reason, judge finite x = ⟨none, some reason⟩) ∨ ∃ y, judge finite x = ⟨some y, none⟩ := by
  cases x with
  | none => exact .inl ⟨_, rfl⟩
  | some y =>
    rw [judge]
    split
    · exact .inr ⟨y, rfl⟩
    · exact .inl ⟨_, rfl⟩

theorem System.scaledSolve_cases (s : System α n) :
    (∃ reason, s.scaledSolve = ⟨none, some reason⟩) ∨
      ∃ delta, s.scaledSolve = ⟨some delta, none⟩ := by
  rw [scaledSolve, LinearSolve.ofMatrix]
  rcases LinearSolve.judge_cases (S := Mat α n 1) Mat.isFinite _ with
    ⟨reason, solve⟩ | ⟨x, solve⟩
  · exact .inl ⟨reason, by rw [solve]; rfl⟩
  · exact .inr ⟨x.firstColumn, by rw [solve]; rfl⟩

namespace Newton

/-- What the tests say of a system, in the order in which they are made: the outcome, if one of them
stops the iteration, and how many steps are taken from the iterate before it stops. -/
def stop? (config : Config α) (s : System α n) : Option (Outcome × Nat) :=
  if !Scalar.isFinite s.balance.absTotal then some (.diverged .nonFiniteBalance, 0)
  else if Scalar.le s.balance.absTotal config.balanceTol then some (.converged, 0)
  else if !Scalar.isFinite s.jacobian.absTotal ||
      Scalar.le s.jacobian.absTotal config.jacobianTol then some (.diverged .degenerateJacobian, 0)
  else match s.scaledSolve with
    | ⟨_, some reason⟩ => some (.diverged reason, 0)
    | ⟨some delta, none⟩ =>
      if Scalar.le delta.absTotal config.stepTol then some (.converged, 1) else none
    | ⟨none, none⟩ => none

/-- The iterates of Newton's method, where `system` gives the balance and the Jacobian at a vector.
If the linear system has no solution the sequence stays where it is. -/
def ideal (system : Vec α n → System α n) (start : Vec α n) : Nat → Vec α n
  | 0 => start
  | k + 1 =>
    match (system (ideal system start k)).scaledSolve.solution with
    | some delta => Vec.zipWith (· - ·) (ideal system start k) delta
    | none => ideal system start k

/-- The result of an iteration that evaluates the iterates up to the one with index `i`, and takes a
number of steps. -/
def stoppedAt (config : Config α) (system : Vec α n → System α n) (start : Vec α n)
    (outcome : Outcome) (i steps : Nat) : FitResult (Vec α n) α where
  outcome := outcome
  beta := ideal system start steps
  iterations := i + 1
  absBalance := (system (ideal system start i)).balance.absTotal
  history :=
    if config.history then some ((List.range (steps + 1)).map (ideal system start)) else none

/-- The result for the first iterate that a test stops at, of as many as may be evaluated; without a
stop, the result after a step from the last of them. -/
def firstStop (config : Config α) (system : Vec α n → System α n) (start : Vec α n) :
    FitResult (Vec α n) α :=
  match (List.range config.maxIter).findSome? fun k =>
      (stop? config (system (ideal system start k))).map (k, ·) with
  | some (k, outcome, steps) => stoppedAt config system start outcome k (k + steps)
  | none => stoppedAt config system start .exhausted (config.maxIter - 1) config.maxIter

section Assess

variable [Scalar.LawfulZero α] {config : Config α}

/-- The empty system is in balance, so its solve is never asked for. -/
theorem le_absTotal_empty (accepted : config.accepted = true) (v : Vec α 0) :
    Scalar.isFinite v.absTotal = true ∧ Scalar.le v.absTotal config.balanceTol = true := by
  rw [v.absTotal_empty]
  exact ⟨Scalar.LawfulZero.isFinite_zero, Scalar.LawfulZero.le_of_isZero
    Scalar.LawfulZero.isZero_zero (Config.isThreshold_balanceTol accepted)⟩

/-- A Jacobian whose total is above an accepted tolerance can be scaled. -/
theorem ofJacobian?_of_lt (accepted : config.accepted = true) {j : Mat α n n}
    (large : (!Scalar.isFinite j.absTotal || Scalar.le j.absTotal config.jacobianTol) = false) :
    Scaling.ofJacobian? config.jacobianTol j =
      .ok (some ⟨((n * n : Nat) : α) / j.absTotal⟩) := by
  have nonzero : Scalar.isZero j.absTotal = false := by
    cases zero : Scalar.isZero j.absTotal with
    | false => rfl
    | true =>
      rw [Scalar.LawfulZero.le_of_isZero zero (Config.isThreshold_jacobianTol accepted),
        Bool.or_true] at large
      exact large
  rw [Scaling.ofJacobian?, Scaling.ofTotal?, large, nonzero]
  rfl

/-- With accepted parameters a system is assessed as the tests say: either one of them stops the
iteration at once, or the solution of the linear system is the step. -/
theorem assess_cases (accepted : config.accepted = true) (s : System α n) :
    (∃ outcome, stop? config s = some (outcome, 0) ∧ assess config s = .ok (.stop outcome)) ∨
      ∃ delta, s.scaledSolve.solution = some delta ∧ assess config s = .ok (.step delta) ∧
        stop? config s =
          if Scalar.le delta.absTotal config.stepTol then some (.converged, 1) else none := by
  rw [stop?, assess]
  by_cases finite : Scalar.isFinite s.balance.absTotal = true
  case neg =>
    rw [Bool.not_eq_true] at finite
    exact .inl ⟨.diverged .nonFiniteBalance, by simp [finite], by simp [finite]; rfl⟩
  by_cases balanced : Scalar.le s.balance.absTotal config.balanceTol = true
  case pos => exact .inl ⟨.converged, by simp [finite, balanced], by simp [finite, balanced]; rfl⟩
  rcases large : (!Scalar.isFinite s.jacobian.absTotal ||
      Scalar.le s.jacobian.absTotal config.jacobianTol) with _ | _
  case true =>
    have none_left : Scaling.ofJacobian? config.jacobianTol s.jacobian = .ok none := by
      rw [Scaling.ofJacobian?, Scaling.ofTotal?, large]
      rfl
    refine .inl ⟨.diverged .degenerateJacobian, by simp [finite, balanced], ?_⟩
    simp only [finite, balanced, none_left]
    rfl
  -- From here on the size is positive, for an empty system would have been in balance.
  cases n with
  | zero => exact absurd (le_absTotal_empty accepted s.balance).2 balanced
  | succ n =>
    have scaled := ofJacobian?_of_lt accepted large
    rcases s.scaledSolve_cases with ⟨reason, solve⟩ | ⟨delta, solve⟩
    · refine .inl ⟨.diverged reason, by simp [finite, balanced, solve], ?_⟩
      simp only [finite, balanced, scaled]
      change Verdict.ofSolve s.scaledSolve = _
      rw [solve]
      rfl
    · refine .inr ⟨delta, by rw [solve], ?_, by simp [finite, balanced, solve]⟩
      simp only [finite, balanced, scaled]
      change Verdict.ofSolve s.scaledSolve = _
      rw [solve]
      rfl

end Assess

section Sequence

variable (config : Config α) (system : Vec α n → System α n) (start : Vec α n)

/-- Where the iteration stands when it reaches an iterate of the sequence. -/
def reached (k : Nat) : Progress α n where
  evaluations := k
  beta := ideal system start k
  absBalance :=
    match k with
    | 0 => Scalar.nan
    | i + 1 => (system (ideal system start i)).balance.absTotal
  history :=
    if config.history then some ((List.range (k + 1)).map (ideal system start)).reverse else none

/-- The iteration at an iterate of the sequence, once the system there is known. -/
def evaluatedAt (k : Nat) : Progress α n :=
  (reached config system start k).evaluated (ideal system start k)
    (system (ideal system start k)).balance.absTotal

theorem reached_zero : reached config system start 0 = Progress.start config.history start := by
  rw [reached, Progress.start]
  split <;> rfl

theorem result_evaluatedAt (outcome : Outcome) (k : Nat) :
    (evaluatedAt config system start k).result outcome =
      stoppedAt config system start outcome k k := by
  simp only [evaluatedAt, reached, Progress.evaluated, Progress.result, stoppedAt]
  congr 1
  split <;> simp

theorem result_reached_succ (outcome : Outcome) (k : Nat) :
    (reached config system start (k + 1)).result outcome =
      stoppedAt config system start outcome k (k + 1) := by
  simp only [reached, Progress.result, stoppedAt]
  congr 1
  split <;> simp

/-- The step from an iterate leads to the next one. -/
theorem stepped_evaluatedAt {k : Nat} {delta : Vec α n}
    (solution : (system (ideal system start k)).scaledSolve.solution = some delta) :
    (evaluatedAt config system start k).stepped delta = reached config system start (k + 1) := by
  have next : ideal system start (k + 1) = Vec.zipWith (· - ·) (ideal system start k) delta := by
    rw [ideal, solution]
  simp only [evaluatedAt, reached, Progress.evaluated, Progress.stepped, ← next]
  congr 1
  split
  · rw [List.range_succ (n := k + 1), List.map_append, List.reverse_append]
    rfl
  · rfl

end Sequence

section Run

open Run

variable {model : Model (Act σ) α} {store : Store α} {config : Config α}
  {observer : Option (Observer σ α)} {f : Vec α n → System α n} {level : Int}

variable [Scalar.LawfulZero α]

/-- From an iterate of the sequence on, the iteration returns what belongs to the first stop. The
induction is on the evaluations that are left; that an iterate is reached carries it. -/
theorem exists_iterate_reached (accepted : config.accepted = true)
    (leveled : config.verbosity = .level level) (computes : model.Computes store f)
    (passive : ∀ o ∈ observer, o.Passive) (start : Vec α n) (remaining k : Nat)
    (budget : k + remaining = config.maxIter) (w : World σ α) :
    let system (b : Vec α n) := (f b).regularize config.epsilon b
    ∃ w', Returns
      (iterate model store config observer remaining (reached config system start k)) w
      (match (List.range' k remaining).findSome? fun i =>
          (stop? config (system (ideal system start i))).map (i, ·) with
        | some (i, outcome, steps) => stoppedAt config system start outcome i (i + steps)
        | none => stoppedAt config system start .exhausted (config.maxIter - 1) config.maxIter)
      w' := by
  intro system
  induction remaining generalizing k w with
  | zero =>
    have positive := Config.one_le_maxIter accepted
    obtain ⟨i, rfl⟩ : ∃ i, k = i + 1 := ⟨k - 1, by omega⟩
    refine ⟨w, returns_pure_iff.2 ⟨?_, rfl⟩⟩
    rw [result_reached_succ, ← budget]
    rfl
  | succ remaining ih =>
    rw [List.range'_succ, List.findSome?_cons]
    rcases assess_cases accepted (system (ideal system start k)) with
      ⟨outcome, stops, assessed⟩ | ⟨delta, solution, assessed, small⟩
    · rw [stops]
      have ended := exists_iterate_of_stop leveled computes passive remaining
        (reached config system start k) assessed w
      change ∃ w', Returns _ w ((evaluatedAt config system start k).result outcome) w' at ended
      rw [result_evaluatedAt] at ended
      exact ended
    · refine exists_iterate_succ leveled computes passive remaining
        (reached config system start k) assessed (fun w => ?_) w
      obtain ⟨w₁, printed⟩ := exists_printFrom 1 level (.step delta.absTotal) w
      have next := stepped_evaluatedAt config system start solution
      rw [conclude, leveled, small]
      change ∃ w', Returns (_ >>= fun _ => if Scalar.le delta.absTotal config.stepTol then
        pure (((evaluatedAt config system start k).stepped delta).result .converged)
        else iterate model store config observer remaining
          ((evaluatedAt config system start k).stepped delta)) w _ w'
      rw [next]
      split
      · refine ⟨w₁, printed.bind (returns_pure_iff.2 ⟨?_, rfl⟩)⟩
        exact result_reached_succ config system start .converged k
      · obtain ⟨w', returned⟩ := ih (k + 1) (by omega) w₁
        exact ⟨w', printed.bind returned⟩

/-- From finite starting coefficients an iteration returns what belongs to the first stop, unless the
verbosity is no level. -/
theorem start_newton_of_finite (accepted : config.accepted = true)
    (computes : model.Computes store f) (passive : ∀ o ∈ observer, o.Passive) {start : Vec α n}
    (finite : start.isFinite = true) (u : σ) :
    (Run.start u (newton model store config observer start)).1 =
      (config.verbosity.atLeast 1).map fun _ =>
        firstStop config (fun b => (f b).regularize config.epsilon b) start := by
  let system (b : Vec α n) := (f b).regularize config.epsilon b
  refine start_newton_of_returns (Config.one_le_maxIter accepted) finite
    ⟨_, exists_visit computes passive 1 start _⟩ fun level leveled => start_eq_ok_iff.2 ?_
  -- The start is the first iterate of the sequence, and all evaluations are left.
  obtain ⟨w', returned⟩ := exists_iterate_reached accepted leveled computes passive start
    config.maxIter 0 (Nat.zero_add _) ⟨u, #[], #[]⟩
  rw [reached_zero config system start, ← List.range_eq_range'] at returned
  rw [newton, if_pos finite]
  exact ⟨w', returned⟩

/-- **Newton's method returns what belongs to the first stop along Newton's sequence.** This holds
for every model that computes and every passive observer, whatever the arithmetic, as long as zero
is within every threshold. Starting coefficients that are not finite are returned as they are. -/
theorem newton_eq_firstStop (accepted : config.accepted = true)
    (computes : model.Computes store f) (passive : ∀ o ∈ observer, o.Passive) (start : Vec α n)
    (u : σ) :
    (Run.start u (newton model store config observer start)).1 =
      if start.isFinite then
        (config.verbosity.atLeast 1).map fun _ =>
          firstStop config (fun b => (f b).regularize config.epsilon b) start
      else .ok {
        outcome := .diverged .nonFiniteWarmStart
        beta := start
        iterations := 0
        absBalance := Scalar.nan
        history := if config.history then some [start] else none } := by
  split
  case isTrue finite => exact start_newton_of_finite accepted computes passive finite u
  case isFalse broken =>
    rw [Run.start, newton, if_neg broken]
    change Except.ok ((Progress.start config.history start).result _) = _
    rw [Progress.start, Progress.result]
    split <;> rfl

end Run

/-- The system whose exact solution is the square root of two in every coefficient. -/
def squareRoots {n : Nat} (b : Vec ℚ n) : System ℚ n where
  balance := b.map fun x => x ^ 2 - 2
  jacobian := Mat.ofFn fun i j => if i = j then 2 * b i else 0

/-- The model that computes square roots of two from any number of starting coefficients. -/
def squareRootModel : Model (Act Nat) ℚ where
  name := "SquareRoots"
  dim? := none
  link? := none
  evaluate? := some fun n _ beta _ => pure (squareRoots (Vec.ofListPadded n beta.entries))

/-- The observer that counts its calls. -/
def counting : Observer Nat ℚ where
  observe _ _ beta balance := do
    modify (· + 1)
    return (beta, balance)

/-- Two steps from one lead to `17 / 12`, and the balance before the second one was `1 / 4`. -/
theorem newton_eq_firstStop_squareRoots :
    let config : Config ℚ := ⟨0, 1 / 1000, 0, 0, 2, .level 2, true⟩
    let one : Vec ℚ 1 := .replicate 1 1
    (Run.start 0 (newton squareRootModel (.empty none) config (some counting) one)).1 =
      .ok {
        outcome := .exhausted
        beta := .replicate 1 (17 / 12)
        iterations := 2
        absBalance := 1 / 4
        history := some [one, .replicate 1 (3 / 2), .replicate 1 (17 / 12)] } := by
  intro config one
  have accepted : config.accepted = true := by decide +kernel
  have computes : squareRootModel.Computes (.empty none) (squareRoots (n := 1)) := by
    intro b
    simp only [Model.evaluate, squareRootModel, Grid.ofVec, Vec.ofListPadded_toList]
  have passive : ∀ o ∈ some counting, o.Passive := by
    intro o member n call shape beta balance u
    cases member
    exact ⟨u + 1, rfl⟩
  rw [newton_eq_firstStop accepted computes passive]
  decide +kernel

end Newton

end BalanceFit
