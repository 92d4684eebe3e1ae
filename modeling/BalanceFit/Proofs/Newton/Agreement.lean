import BalanceFit.Proofs.Newton.FirstStop

/-!
# Sequences that agree as far as they are looked at

The result of an iteration depends on the systems along Newton's sequence up to the first stop, and
on nothing that comes later. So if two functions give equal systems at the iterates that one
iteration evaluates, the other iteration has the same result. If they part at one of these iterates,
then that is the first place where the other iteration can end in a different way.

## Main definitions

* `Newton.answer` : the result of an iteration from starting coefficients, finite or not

## Main statements

* `Newton.start_newton` : iterations return their answers
* `Newton.ideal_congr` : the sequence up to an index depends on the systems before that index
* `Newton.firstStop_of_stop` : the first stop along the sequence is unique
* `Newton.stop?_eq_none_of_lt` : before the last iterate that is evaluated there is no stop
* `Newton.firstStop_congr`, `Newton.answer_congr` : the result depends on the systems at the
  iterates that are evaluated
-/

namespace BalanceFit.Newton

variable {α σ : Type} [Scalar α] {n : Nat} {config : Config α}
  {system system' : Vec α n → System α n} {start : Vec α n} {k : Nat}

/-- The sequence up to an index depends on the systems before that index. -/
theorem ideal_congr
    (agree : ∀ i < k, system' (ideal system start i) = system (ideal system start i)) :
    ideal system' start k = ideal system start k := by
  induction k with
  | zero => rfl
  | succ k ih =>
    have before := ih fun i bound => agree i (Nat.lt_succ_of_lt bound)
    rw [ideal, ideal, before, agree k (Nat.lt_succ_self k)]

/-- A balance within its tolerance is a stop. -/
theorem stop?_of_balanced {s : System α n} (finite : Scalar.isFinite s.balance.absTotal = true)
    (balanced : Scalar.le s.balance.absTotal config.balanceTol = true) :
    stop? config s = some (.converged, 0) := by
  rw [stop?, finite, balanced]
  rfl

/-- A stop comes after one step at most. -/
theorem steps_le_one {s : System α n} {outcome : Outcome} {steps : Nat}
    (stops : stop? config s = some (outcome, steps)) : steps ≤ 1 := by
  rw [stop?] at stops
  split at stops
  · cases stops
    exact Nat.zero_le 1
  split at stops
  · cases stops
    exact Nat.zero_le 1
  split at stops
  · cases stops
    exact Nat.zero_le 1
  split at stops
  · cases stops
    exact Nat.zero_le 1
  · split at stops <;> cases stops
    exact Nat.le_refl 1
  · cases stops

/-- The result for an ending depends on the systems before the coefficients that it returns. -/
theorem stoppedAt_congr {outcome : Outcome} {steps : Nat}
    (agree : ∀ i ≤ k, system' (ideal system start i) = system (ideal system start i))
    (near : steps ≤ k + 1) :
    stoppedAt config system' start outcome k steps =
      stoppedAt config system start outcome k steps := by
  have same (i : Nat) (bound : i ≤ k + 1) : ideal system' start i = ideal system start i :=
    ideal_congr fun j before => agree j (by omega)
  have kept : (List.range (steps + 1)).map (ideal system' start) =
      (List.range (steps + 1)).map (ideal system start) := by
    refine List.map_congr_left fun i member => same i ?_
    have bound := List.mem_range.1 member
    omega
  rw [stoppedAt, stoppedAt, kept, same steps near, same k (Nat.le_succ k), agree k (Nat.le_refl k)]

section Search

variable {β : Type} {f : Nat → Option β} {m : Nat}

/-- A search through the first numbers ends at the first one that there is something for. -/
theorem findSome?_range_of_first {b : β} (bound : k < m) (before : ∀ i < k, f i = none)
    (found : f k = some b) : (List.range m).findSome? f = some b := by
  induction m with
  | zero => exact absurd bound (Nat.not_lt_zero k)
  | succ m ih =>
    rw [List.range_succ, List.findSome?_append]
    rcases Nat.lt_succ_iff_lt_or_eq.1 bound with earlier | rfl
    · rw [ih earlier]
      rfl
    · have nothing : (List.range k).findSome? f = none := by
        rw [List.findSome?_eq_none_iff]
        exact fun i member => before i (List.mem_range.1 member)
      rw [nothing, List.findSome?_cons, found]
      rfl

end Search

/-- The first stop along the sequence is the one that the result belongs to. -/
theorem firstStop_of_stop {outcome : Outcome} {steps : Nat} (bound : k < config.maxIter)
    (before : ∀ i < k, stop? config (system (ideal system start i)) = none)
    (stops : stop? config (system (ideal system start k)) = some (outcome, steps)) :
    firstStop config system start = stoppedAt config system start outcome k (k + steps) := by
  have found := findSome?_range_of_first (f := fun k =>
    (stop? config (system (ideal system start k))).map (k, ·)) (b := (k, outcome, steps)) bound
    (fun i earlier => by rw [before i earlier]; rfl) (by rw [stops]; rfl)
  rw [firstStop, found]

/-- Without a stop the bound on evaluations ends the iteration. -/
theorem firstStop_of_forall_none
    (going : ∀ i < config.maxIter, stop? config (system (ideal system start i)) = none) :
    firstStop config system start =
      stoppedAt config system start .exhausted (config.maxIter - 1) config.maxIter := by
  have nothing : (List.range config.maxIter).findSome? (fun k =>
      (stop? config (system (ideal system start k))).map (k, ·)) = none := by
    rw [List.findSome?_eq_none_iff]
    intro i member
    rw [going i (List.mem_range.1 member)]
    rfl
  rw [firstStop, nothing]

/-- Either there is a first stop, or there is none at all. -/
theorem firstStop_cases (config : Config α) (system : Vec α n → System α n) (start : Vec α n) :
    (∃ k outcome steps, k < config.maxIter ∧
      (∀ i < k, stop? config (system (ideal system start i)) = none) ∧
        stop? config (system (ideal system start k)) = some (outcome, steps)) ∨
      ∀ i < config.maxIter, stop? config (system (ideal system start i)) = none := by
  classical
  by_cases stops : ∃ k, k < config.maxIter ∧
      stop? config (system (ideal system start k)) ≠ none
  · obtain ⟨bound, found⟩ := Nat.find_spec stops
    obtain ⟨⟨outcome, steps⟩, found⟩ := Option.ne_none_iff_exists'.1 found
    refine .inl ⟨_, outcome, steps, bound, fun i earlier => ?_, found⟩
    by_contra other
    exact Nat.find_min stops earlier ⟨earlier.trans bound, other⟩
  · refine .inr fun i bound => ?_
    by_contra other
    exact stops ⟨i, bound, other⟩

/-- Before the last iterate that is evaluated there is no stop. -/
theorem stop?_eq_none_of_lt (before : k + 1 < (firstStop config system start).iterations) :
    stop? config (system (ideal system start k)) = none := by
  rcases firstStop_cases config system start with ⟨j, outcome, steps, bound, going, stops⟩ | going
  · rw [firstStop_of_stop bound going stops] at before
    exact going k (Nat.lt_of_succ_lt_succ before)
  · rw [firstStop_of_forall_none going] at before
    change k + 1 < config.maxIter - 1 + 1 at before
    exact going k (by omega)

/-- At least one iterate is evaluated, -/
theorem one_le_iterations_firstStop (config : Config α) (system : Vec α n → System α n)
    (start : Vec α n) : 1 ≤ (firstStop config system start).iterations := by
  rw [firstStop]
  split <;> exact Nat.le_add_left 1 _

/-- and no more iterates than allowed. -/
theorem iterations_firstStop_le (positive : 1 ≤ config.maxIter) :
    (firstStop config system start).iterations ≤ config.maxIter := by
  rcases firstStop_cases config system start with ⟨j, outcome, steps, bound, going, stops⟩ | going
  · rw [firstStop_of_stop bound going stops]
    exact bound
  · rw [firstStop_of_forall_none going]
    change config.maxIter - 1 + 1 ≤ config.maxIter
    omega

/-- If the systems agree at the iterates that are evaluated, the results are equal. -/
theorem firstStop_congr (positive : 1 ≤ config.maxIter)
    (agree : ∀ i < (firstStop config system start).iterations,
      system' (ideal system start i) = system (ideal system start i)) :
    firstStop config system' start = firstStop config system start := by
  rcases firstStop_cases config system start with ⟨j, outcome, steps, bound, going, stops⟩ | going
  · have result := firstStop_of_stop bound going stops
    rw [result] at agree ⊢
    have agree (i : Nat) (h : i ≤ j) := agree i (Nat.lt_succ_of_le h)
    have same (i : Nat) (h : i ≤ j) : system' (ideal system' start i) =
        system (ideal system start i) := by
      rw [ideal_congr fun k before => agree k (by omega), agree i h]
    rw [firstStop_of_stop bound (fun i before => by rw [same i before.le, going i before])
      ((congrArg _ (same j le_rfl)).trans stops)]
    exact stoppedAt_congr agree (Nat.add_le_add_left (steps_le_one stops) j)
  · have result := firstStop_of_forall_none going
    rw [result] at agree ⊢
    have agree (i : Nat) (h : i ≤ config.maxIter - 1) := agree i (Nat.lt_succ_of_le h)
    have same (i : Nat) (h : i < config.maxIter) : system' (ideal system' start i) =
        system (ideal system start i) := by
      rw [ideal_congr fun k before => agree k (by omega), agree i (by omega)]
    rw [firstStop_of_forall_none fun i before => by rw [same i before, going i before]]
    exact stoppedAt_congr agree (by omega)

/-- The result of an iteration from starting coefficients. -/
def answer (config : Config α) (system : Vec α n → System α n) (start : Vec α n) :
    FitResult (Vec α n) α :=
  if start.isFinite then firstStop config system start
  else (Progress.start config.history start).result (.diverged .nonFiniteWarmStart)

/-- If the systems agree at the iterates that are evaluated, the answers are equal. -/
theorem answer_congr (positive : 1 ≤ config.maxIter)
    (agree : ∀ i < (answer config system start).iterations,
      system' (ideal system start i) = system (ideal system start i)) :
    answer config system' start = answer config system start := by
  rw [answer] at agree
  rw [answer, answer]
  split
  case isTrue finite =>
    rw [if_pos finite] at agree
    exact firstStop_congr positive agree
  case isFalse => rfl

/-- Iterations return their answers, unless they come to a report and the verbosity is no level. -/
theorem start_newton [Scalar.LawfulZero α] {model : Model (Act σ) α} {store : Store α}
    {observer : Option (Observer σ α)} {f : Vec α n → System α n}
    (accepted : config.accepted = true) (computes : model.Computes store f)
    (passive : ∀ o ∈ observer, o.Passive) (start : Vec α n) (u : σ) :
    let r := answer config (fun b => (f b).regularize config.epsilon b) start
    (Run.start u (newton model store config observer start)).1 =
      if start.isFinite then (config.verbosity.atLeast 1).map fun _ => r else .ok r := by
  intro r
  split
  case isTrue finite =>
    rw [start_newton_of_finite accepted computes passive finite]
    simp only [r, answer, if_pos finite]
  case isFalse broken =>
    rw [Run.start, newton, if_neg broken]
    simp only [r, answer, if_neg broken]
    rfl

end BalanceFit.Newton
