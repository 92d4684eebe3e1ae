import Mathlib.Data.List.Infix
import BalanceFit.Proofs.Newton.Assess
import BalanceFit.Proofs.Newton.Round
import BalanceFit.Proofs.Newton.Totality

/-!
# More evaluations

The bound on evaluations is looked at when it is reached, and at no other time. So an iteration that
ends before it reaches its bound is the same under every larger bound, to the last line that it
prints. An iteration that was ended by its bound is the beginning of the iteration under a larger
one, which evaluates next what the smaller bound returned.

## Main definitions

* `Newton.Extends` : what an iteration has when it ends begins with what it had before
* `Newton.Prolongs` : what a longer iteration has in common with the one that it prolongs

## Main statements

* `Newton.adds_of_round` : what one round adds to the count, the history, the calls and a log
* `Newton.extends_of_rounds` : rounds change nothing of what was there before
* `Newton.newton_of_maxIter_le` : the iterations under two bounds
-/

namespace BalanceFit.Newton

open Run

variable {α σ : Type} [Scalar α] {n : Nat} {model : Model (Act σ) α} {store : Store α}
  {config : Config α} {observer : Option (Observer σ α)} {p q : Progress α n}
  {r r' : FitResult (Vec α n) α} {turn : Turn α n} {w w' w'' : World σ α} {k : Nat}

/-- What a round from `p` adds: an evaluation and, if there is an observer, a call with the
coefficients there. -/
structure Adds (model : Model (Act σ) α) (store : Store α) (observer : Option (Observer σ α))
    (p : Progress α n) (w : World σ α) (r : FitResult (Vec α n) α) (w' : World σ α) : Prop where
  iterations : r.iterations = p.evaluations + 1
  history : ∃ later, r.history = p.history.map (·.reverse ++ later)
  noCall : observer = none → w'.visits = w.visits
  call : observer.isSome → ∃ balance, w'.visits = w.visits.push ⟨p.beta.toList, balance⟩
  note : ∀ log, Logs model store observer n log → log w'.user = log w.user ++ [p.beta.toList]

/-- One round adds one evaluation. -/
theorem adds_of_round (returned : Returns (round model store config observer p) w turn w') :
    Adds model store observer p w turn.result w' := by
  obtain ⟨-, beta, s, w₁, visited, printed, followed⟩ := exists_visit_of_round returned
  obtain ⟨t, u, visited⟩ := exists_visited visited
  have noCall (missing : observer = none) : w'.visits = w.visits := by
    rw [printed.visits, visited.noCall missing]
  have call (shown : observer.isSome) : ∃ balance,
      w'.visits = w.visits.push ⟨p.beta.toList, balance⟩ := by
    rw [printed.visits, visited.call shown]
    exact ⟨_, rfl⟩
  have note (log : σ → List (List α)) (logs : Logs model store observer n log) :
      log w'.user = log w.user ++ [p.beta.toList] := by
    rw [printed.user]
    exact logs.visited visited
  have kept (delta : Vec α n) (outcome : Outcome) :
      ((((p.evaluated beta s.balance.absTotal).stepped delta).result outcome).history) =
        p.history.map (·.reverse ++ [Vec.zipWith (· - ·) beta delta]) := by
    simp only [Progress.result, Progress.stepped, Progress.evaluated, Option.map_map]
    congr 1
    funext l
    exact List.reverse_cons
  cases followed with
  | stopped =>
    refine ⟨rfl, ⟨[], ?_⟩, noCall, call, note⟩
    simp only [List.append_nil]
    rfl
  | shortStep => exact ⟨rfl, ⟨_, kept _ _⟩, noCall, call, note⟩
  | stepped => exact ⟨rfl, ⟨_, kept _ _⟩, noCall, call, note⟩

/-- What an iteration has when it ends with a result begins with what it had when it stood at `p`.
-/
structure Extends (model : Model (Act σ) α) (store : Store α) (observer : Option (Observer σ α))
    (p : Progress α n) (w : World σ α) (r : FitResult (Vec α n) α) (w' : World σ α) : Prop where
  iterations : p.evaluations ≤ r.iterations
  history : ∃ later, r.history = p.history.map (·.reverse ++ later)
  calls : w.visits.toList <+: w'.visits.toList
  notes : ∀ log, Logs model store observer n log → log w.user <+: log w'.user

theorem Extends.refl (p : Progress α n) (w : World σ α) :
    Extends model store observer p w (p.result .exhausted) w where
  iterations := Nat.le_refl _
  history := ⟨[], by simp only [List.append_nil]; rfl⟩
  calls := List.prefix_refl _
  notes _ _ := List.prefix_refl _

theorem Adds.extends (added : Adds model store observer p w r w') :
    Extends model store observer p w r w' where
  iterations := by
    rw [added.iterations]
    exact Nat.le_succ _
  history := added.history
  calls := by
    cases shown : observer with
    | none => rw [added.noCall shown]
    | some o =>
      obtain ⟨balance, pushed⟩ := added.call (by rw [shown]; rfl)
      rw [pushed, Array.toList_push]
      exact List.prefix_append _ _
  notes log logs := by
    rw [added.note log logs]
    exact List.prefix_append _ _

theorem Extends.trans (first : Extends model store observer p w (q.result .exhausted) w')
    (second : Extends model store observer q w' r w'') :
    Extends model store observer p w r w'' where
  iterations := Nat.le_trans first.iterations second.iterations
  history := by
    obtain ⟨later, kept⟩ := first.history
    obtain ⟨last, kept'⟩ := second.history
    refine ⟨later ++ last, ?_⟩
    change q.history.map List.reverse = _ at kept
    -- What is appended to the history of `q` is appended to that of `p` and what came between.
    have split : q.history.map (·.reverse ++ last) =
        (q.history.map List.reverse).map (· ++ last) := by
      rw [Option.map_map]
      rfl
    rw [kept', split, kept, Option.map_map]
    congr 1
    funext l
    exact List.append_assoc _ _ _
  calls := first.calls.trans second.calls
  notes log logs := (first.notes log logs).trans (second.notes log logs)

theorem Extends.prefix_history (extended : Extends model store observer p w r w') :
    ∀ l ∈ p.history.map List.reverse, ∃ l' ∈ r.history, l <+: l' := by
  intro l member
  obtain ⟨later, kept⟩ := extended.history
  obtain ⟨past, found, rfl⟩ := Option.mem_map.1 member
  rw [Option.mem_def.1 found] at kept
  exact ⟨_, kept, List.prefix_append _ _⟩

/-- Rounds change nothing of what was there before. -/
theorem extends_of_rounds
    (returned : Returns (rounds model store config observer k p) w turn w') :
    Extends model store observer p w turn.result w' := by
  have extended := rounds_induction (I := fun q => Extends model store observer p w (q.result .exhausted))
    (F := Extends model store observer p w)
    (fun {q turn w₁ w₂} here rounded => by
      have whole := here.trans (adds_of_round rounded).extends
      cases turn <;> exact whole)
    (Extends.refl p w) returned
  cases turn <;> exact extended

/-- After some rounds that have not ended the iteration there were as many evaluations, and as many
calls of an observer. -/
theorem evaluations_of_rounds
    (returned : Returns (rounds model store config observer k p) w (.inl q) w') :
    q.evaluations = p.evaluations + k ∧
      (observer.isSome → w'.visits.size = w.visits.size + k) := by
  induction k generalizing p w with
  | zero =>
    obtain ⟨same, rfl⟩ := returns_pure_iff.1 returned
    cases same
    exact ⟨rfl, fun _ => rfl⟩
  | succ k ih =>
    rw [rounds, returns_bind_iff] at returned
    obtain ⟨first, w₁, rounded, returned⟩ := returned
    cases first with
    | inr r => cases (returns_pure_iff.1 returned).1
    | inl p₁ =>
      have added := adds_of_round rounded
      have number : p₁.evaluations = p.evaluations + 1 := added.iterations
      obtain ⟨evaluations, calls⟩ := ih returned
      refine ⟨by omega, fun shown => ?_⟩
      obtain ⟨balance, pushed⟩ := added.call shown
      rw [calls shown, pushed, Array.size_push]
      omega

/-- Rounds that return have reported something, which takes a verbosity that is a level. -/
theorem level_of_rounds (some_round : 1 ≤ k)
    (returned : Returns (rounds model store config observer k p) w turn w') :
    ∃ level, config.verbosity = .level level := by
  obtain ⟨k, rfl⟩ := Nat.exists_eq_add_of_le' some_round
  obtain ⟨_, _, rounded, -⟩ := returns_bind_iff.1 returned
  exact (exists_visit_of_round rounded).1

/-- The bound on evaluations never ends an iteration before it is reached. -/
theorem outcome_ne_exhausted_of_rounds
    (returned : Returns (rounds model store config observer k p) w (.inr r) w') :
    r.outcome ≠ .exhausted := by
  refine rounds_induction (I := fun _ _ => True) (F := fun r _ => r.outcome ≠ .exhausted)
    (fun {_ turn _ _} _ rounded => ?_) trivial returned
  obtain ⟨-, _, _, _, -, -, followed⟩ := exists_visit_of_round rounded
  cases followed with
  | stopped assessed =>
    -- No verdict has this outcome.
    rintro rfl
    cases assessed_of_assess assessed
  | shortStep => exact nofun
  | stepped => trivial

/-- With a bound of its own, an iteration goes through as many rounds as the bound allows. -/
theorem newton_withMaxIter (maxIter : Nat) {start : Vec α n} (finite : start.isFinite = true) :
    newton model store { config with maxIter := maxIter } observer start =
      iterate model store config observer maxIter (.start config.history start) := by
  rw [newton, if_pos finite]
  exact iterate_withMaxIter model store config observer maxIter maxIter _

/-- What an iteration that returns `r'` and leaves `w'` has in common with the one that returned `r`
and left `w` when it reached a smaller bound. -/
structure Prolongs (model : Model (Act σ) α) (store : Store α) (observer : Option (Observer σ α))
    (n bound bound' : Nat) (r : FitResult (Vec α n) α) (w : World σ α)
    (r' : FitResult (Vec α n) α) (w' : World σ α) : Prop where
  /-- It evaluates at least as often. -/
  iterations : bound ≤ r'.iterations
  /-- Its history, if it is kept, begins with that of the shorter one. -/
  history : ∀ l ∈ r.history, ∃ l' ∈ r'.history, l <+: l'
  /-- The first calls of its observer are those of the shorter one, one for every evaluation. -/
  calls : observer.isSome →
    w.visits.size = bound ∧ w'.visits.toList.take bound = w.visits.toList
  /-- If it may go on, the next call is with the coefficients that the shorter one returned, -/
  nextCall : bound < bound' → observer.isSome →
    ∃ balance, w'.visits[bound]? = some ⟨r.beta.toList, balance⟩
  /-- and the next evaluation is made at them. -/
  nextEvaluation : bound < bound' → ∀ log, Logs model store observer n log →
    log w.user ++ [r.beta.toList] <+: log w'.user

/-- If there is a round at all, then the first call and the first evaluation are with the coefficients
where the iteration stands. All later ones follow them. -/
theorem next_of_rounds (some_round : 1 ≤ k)
    (returned : Returns (rounds model store config observer k p) w turn w') :
    (observer.isSome → ∃ balance, w.visits.toList ++ [⟨p.beta.toList, balance⟩] <+:
        w'.visits.toList) ∧
      ∀ log, Logs model store observer n log → log w.user ++ [p.beta.toList] <+: log w'.user := by
  obtain ⟨k, rfl⟩ := Nat.exists_eq_add_of_le' some_round
  obtain ⟨first, w₁, round, rest⟩ := returns_bind_iff.1 returned
  have added := adds_of_round round
  have later : w₁.visits.toList <+: w'.visits.toList ∧
      ∀ log, Logs model store observer n log → log w₁.user <+: log w'.user := by
    cases first with
    | inl q =>
      have extended := extends_of_rounds rest
      exact ⟨extended.calls, extended.notes⟩
    | inr r =>
      obtain ⟨-, rfl⟩ := returns_pure_iff.1 rest
      exact ⟨List.prefix_refl _, fun _ _ => List.prefix_refl _⟩
  constructor
  · intro shown
    obtain ⟨balance, pushed⟩ := added.call shown
    refine ⟨balance, ?_⟩
    rw [← Array.toList_push, ← pushed]
    exact later.1
  · intro log logs
    rw [← added.note log logs]
    exact later.2 log logs

/-- An iteration that goes on from where a bound has stopped it prolongs what was stopped. -/
theorem prolongs_of_rounds {m d : Nat} {start : Vec α n} {u : σ}
    (before : Returns (rounds model store config observer m (.start config.history start))
      ⟨u, #[], #[]⟩ (.inl q) w)
    (after : Returns (iterate model store config observer d q) w r' w') :
    Prolongs model store observer n m (m + d) (q.result .exhausted) w r' w' := by
  obtain ⟨turn, rounded, rfl⟩ := returns_iterate_iff.1 after
  have extended := extends_of_rounds rounded
  obtain ⟨evaluations, calls⟩ := evaluations_of_rounds before
  have reached : q.evaluations = m := evaluations.trans (Nat.zero_add m)
  have size (shown : observer.isSome) : w.visits.size = m := (calls shown).trans (Nat.zero_add m)
  have next (more : m < m + d) := next_of_rounds (Nat.lt_add_right_iff_pos.1 more) rounded
  refine ⟨reached ▸ extended.iterations, extended.prefix_history, fun shown => ⟨size shown, ?_⟩,
    fun more shown => ?_, fun more => (next more).2⟩
  · have taken := List.prefix_iff_eq_take.1 extended.calls
    rw [Array.length_toList, size shown] at taken
    exact taken.symm
  · -- The call behind the first `m` ones is the next one.
    obtain ⟨balance, rest, whole⟩ := (next more).1 shown
    refine ⟨balance, ?_⟩
    rw [← Array.getElem?_toList, ← whole, List.append_assoc, List.getElem?_append_right]
    · rw [Array.length_toList, size shown, Nat.sub_self]
      rfl
    · rw [Array.length_toList, size shown]

/-- **The bound on evaluations.** Under a larger bound, an iteration that did not reach the smaller
one is the same, with all that it prints, shows and does to the user's state, whether it returned or
failed. An iteration that was ended by the smaller bound is prolonged; and it returns under the
larger bound, too, if the user's code always does. -/
theorem newton_of_maxIter_le [Scalar.LawfulZero α] (model : Model (Act σ) α) (store : Store α)
    (config : Config α) (observer : Option (Observer σ α)) (start : Vec α n) (u : σ) {m m' : Nat}
    (le : m ≤ m') :
    let run (maxIter : Nat) :=
      Run.start u (newton model store { config with maxIter := maxIter } observer start)
    ((∀ r, (run m).1 = .ok r → r.outcome ≠ .exhausted) → run m' = run m) ∧
      ∀ r, (run m).1 = .ok r → r.outcome = .exhausted →
        (∀ r', (run m').1 = .ok r' →
          Prolongs model store observer n m m' r (run m).2 r' (run m').2) ∧
        (Config.accepted { config with maxIter := m } = true → model.Responds store n →
          (∀ o ∈ observer, o.Responds) → ∃ r', (run m').1 = .ok r') := by
  intro run
  obtain ⟨d, rfl⟩ := Nat.exists_eq_add_of_le le
  by_cases finite : start.isFinite = true
  case neg =>
    -- The model is not evaluated, whatever the bound.
    have unstarted (k : Nat) : run k = Run.start u (pure ((Progress.start config.history start).result
        (.diverged .nonFiniteWarmStart))) := by
      simp only [run, newton, if_neg finite]
    refine ⟨fun _ => (unstarted _).trans (unstarted m).symm, fun r returned exhausted => ?_⟩
    rw [unstarted] at returned
    cases returned
    cases exhausted
  case pos =>
    let w₀ : World σ α := ⟨u, #[], #[]⟩
    let p₀ := Progress.start config.history start
    -- Both iterations begin with the same rounds.
    have split (d : Nat) : run (m + d) = (rounds model store config observer m p₀ >>=
        Sum.elim (iterate model store config observer d) pure).run.run w₀ := by
      simp only [run, newton_withMaxIter (m + d) finite, iterate_add]
      rfl
    have shorter : run m = _ := split 0
    have longer := split d
    rw [run_bind] at shorter longer
    rcases before : (rounds model store config observer m p₀).run.run w₀ with ⟨e | q | r, w⟩ <;>
      rw [before] at shorter longer
    · -- They fail there.
      refine ⟨fun _ => longer.trans shorter.symm, fun r returned => ?_⟩
      rw [shorter] at returned
      cases returned
    · -- They stand at `q`, where the shorter one ends.
      change run m = (.ok (q.result .exhausted), w) at shorter
      change run (m + d) = (iterate model store config observer d q).run.run w at longer
      rw [shorter, longer]
      refine ⟨fun ended => absurd rfl (ended _ rfl), fun r returned _ => ?_⟩
      cases returned
      refine ⟨fun r' returned => ?_, fun accepted responds observers => ?_⟩
      · exact prolongs_of_rounds before (Prod.ext returned rfl)
      · obtain ⟨level, leveled⟩ := level_of_rounds (Config.one_le_maxIter accepted) before
        obtain ⟨r', w', returned⟩ := exists_iterate accepted leveled responds observers d q w
        rw [iterate_withMaxIter] at returned
        exact ⟨r', congrArg Prod.fst returned⟩
    · -- They end there, before the bound is reached.
      refine ⟨fun _ => longer.trans shorter.symm, fun r' returned exhausted => ?_⟩
      rw [shorter] at returned
      cases returned
      exact absurd exhausted (outcome_ne_exhausted_of_rounds before)

/-- From one, the first step to the square root of two leads to `3 / 2`. With more evaluations that
is the second call. The fourth evaluation is in balance, and further ones would not be made. -/
theorem newton_of_maxIter_le_squareRoots :
    let config : Config ℚ := ⟨0, 1 / 1000, 0, 0, 1, .level 2, true⟩
    let one : Vec ℚ 1 := .replicate 1 1
    let run (maxIter : Nat) := Run.start 0 (newton squareRootModel (.empty none)
      { config with maxIter := maxIter } (some counting) one)
    (∃ r, (run 1).1 = .ok r ∧ r.outcome = .exhausted ∧ r.beta = .replicate 1 (3 / 2)) ∧
      (∃ r balance, (run 3).1 = .ok r ∧ 1 ≤ r.iterations ∧
        (run 3).2.visits[1]? = some ⟨[3 / 2], balance⟩) ∧
      run 9 = run 4 := by
  intro config one run
  have first : (run 1).1 = .ok ⟨.exhausted, .replicate 1 (3 / 2), 1, 1,
      some [one, .replicate 1 (3 / 2)]⟩ := by
    decide +kernel
  have fourth : (run 4).1.map FitResult.outcome = .ok .converged := by
    decide +kernel
  have responds : squareRootModel.Responds (.empty none) 1 := fun _ u => ⟨_, u, rfl⟩
  have observers : ∀ o ∈ some counting, o.Responds := by
    intro o member n call shape beta balance u
    cases member
    exact ⟨_, u + 1, rfl⟩
  refine ⟨⟨_, first, rfl, rfl⟩, ?_, ?_⟩
  · obtain ⟨-, stopped⟩ := newton_of_maxIter_le squareRootModel (.empty none) config
      (some counting) one 0 (show 1 ≤ 3 by decide)
    obtain ⟨prolonged, returns⟩ := stopped _ first rfl
    obtain ⟨r, returned⟩ := returns (by decide +kernel) responds observers
    have prolongs := prolonged r returned
    obtain ⟨balance, call⟩ := prolongs.nextCall (by decide) rfl
    exact ⟨r, balance, returned, prolongs.iterations, call⟩
  · obtain ⟨same, -⟩ := newton_of_maxIter_le squareRootModel (.empty none) config
      (some counting) one 0 (show 4 ≤ 9 by decide)
    refine same fun r returned exhausted => ?_
    change (run 4).1 = .ok r at returned
    rw [returned] at fourth
    cases exhausted.symm.trans (Except.ok.inj fourth)

end BalanceFit.Newton
