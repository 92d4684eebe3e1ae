import BalanceFit.Proofs.Newton.Breakdown
import BalanceFit.Proofs.Newton.History
import BalanceFit.Proofs.Run.Relation

/-!
# Iterations start anew

Of what came before, an iteration carries on nothing but the coefficients where it stands: its count
of evaluations and its history are only added to. So an iteration that is started again from an
iterate of its history, with the evaluations that were left there, comes to the same end. What it
returns lacks the evaluations and the iterates from before.

## Main definitions

* `Progress.after`, `FitResult.after` : a place and a result with earlier iterates put in front

## Main statements

* `Newton.sameResult_iterate_after` : an iteration does not depend on the iterates before it
* `Newton.exists_resumed` : from any evaluated iterate on, an iteration is one that starts there
* `Newton.restart_of_newton` : so it returns the same from there
-/

namespace BalanceFit

variable {α σ : Type} {n : Nat}

/-- The result of an iteration that went through earlier iterates before it started. -/
def FitResult.after (earlier : List (Vec α n)) (r : FitResult (Vec α n) α) :
    FitResult (Vec α n) α :=
  { r with
    iterations := earlier.length + r.iterations
    history := r.history.map (earlier ++ ·) }

/-- The later part of a result whose history is known. -/
theorem FitResult.eq_of_after (earlier : List (Vec α n)) {r : FitResult (Vec α n) α}
    {later : List (Vec α n)} (kept : r.history = some later) :
    r = { r.after earlier with
      iterations := (r.after earlier).iterations - earlier.length
      history := some later } := by
  obtain ⟨outcome, beta, iterations, absBalance, history⟩ := r
  obtain rfl : history = some later := kept
  have counted : earlier.length + iterations - earlier.length = iterations :=
    Nat.add_sub_cancel_left _ _
  simp only [after, counted]

namespace Newton

open Act Run

/-- The place of an iteration that went through earlier iterates before it started. -/
def Progress.after (earlier : List (Vec α n)) (p : Progress α n) : Progress α n :=
  { p with
    evaluations := earlier.length + p.evaluations
    history := p.history.map (· ++ earlier.reverse) }

theorem Progress.evaluated_after (earlier : List (Vec α n)) (p : Progress α n) (beta : Vec α n)
    (absBalance : α) :
    (p.after earlier).evaluated beta absBalance = (p.evaluated beta absBalance).after earlier :=
  rfl

theorem Progress.stepped_after [Sub α] (earlier : List (Vec α n)) (p : Progress α n)
    (delta : Vec α n) : (p.after earlier).stepped delta = (p.stepped delta).after earlier := by
  simp only [Progress.after, Progress.stepped, Option.map_map]
  rfl

theorem Progress.result_after (earlier : List (Vec α n)) (p : Progress α n) (outcome : Outcome) :
    (p.after earlier).result outcome = (p.result outcome).after earlier := by
  simp only [Progress.after, Progress.result, FitResult.after, Option.map_map]
  congr 2
  funext l
  simp only [Function.comp_apply, List.reverse_append, List.reverse_reverse]

/-- Where a round leads to, with earlier iterates put in front. -/
def Turn.after (earlier : List (Vec α n)) : Turn α n → Turn α n :=
  Sum.map (Progress.after earlier) (FitResult.after earlier)

variable [Scalar α] {model : Model (Act σ) α} {store : Store α} {config : Config α}
  {f : Vec α n → Except Fault (System α n)} {earlier : List (Vec α n)} {p q : Progress α n}
  {r : FitResult (Vec α n) α} {w w' : World σ α} {k d : Nat}

section Rounds

/-- Wherever they begin, two runs give equal results. -/
abbrev SameResult {β : Type} (x y : Run σ α β) : Prop := Related (fun _ _ => True) x y

omit [Scalar α] in
theorem SameResult.returns {β : Type} {x y : Run σ α β} {b : β} (same : SameResult x y)
    (returned : Returns x w b w') (w₁ : World σ α) : ∃ w₂, Returns y w₁ b w₂ := by
  have result : (x.run.run w).1 = (y.run.run w₁).1 := (same w w₁ trivial).1
  rw [returned] at result
  exact ⟨(y.run.run w₁).2, Prod.ext result.symm rfl⟩

omit [Scalar α] in
theorem sameResult_printFrom (k : Int) (v : Verbosity) (line line' : Line α) :
    SameResult (printFrom k v line : Run σ α Unit) (printFrom k v line') :=
  related_printFrom_of (fun _ _ _ => trivial) k v

/-- Without an observer a visit gives what the model yields, whatever the number of the call. -/
theorem sameResult_visit (yields : model.Yields store f) (call call' : Nat) (b : Vec α n) :
    SameResult (visit model store config none call b) (visit model store config none call' b) := by
  refine Related.bind ?_ fun s => related_pure _
  intro w w' _
  exact ⟨(yields b w.user).trans (yields b w'.user).symm, trivial⟩

theorem sameResult_iterate (yields : model.Yields store f) (remaining : Nat) (p : Progress α n) :
    SameResult (iterate model store config none remaining p)
      (iterate model store config none remaining p) :=
  related_iterate (fun call b => sameResult_visit yields call call b)
    (fun k line => sameResult_printFrom k config.verbosity line line) remaining p

/-- What follows from a verdict does not depend on the iterates before. -/
theorem sameResult_follow_after (earlier : List (Vec α n)) (p : Progress α n)
    (verdict : Verdict α n) :
    SameResult (follow config (p.after earlier) verdict : Run σ α (Turn α n))
      (Turn.after earlier <$> follow config p verdict) := by
  cases verdict with
  | stop outcome =>
    rw [follow, follow, map_pure, p.result_after]
    exact related_pure _
  | step delta =>
    rw [follow, follow, map_bind]
    refine (sameResult_printFrom _ _ _ _).bind fun _ => ?_
    rw [p.stepped_after]
    split
    · rw [map_pure, Progress.result_after]
      exact related_pure _
    · rw [map_pure]
      exact related_pure _

/-- A round does not depend on the iterates before it. -/
theorem sameResult_round_after (yields : model.Yields store f) (earlier : List (Vec α n))
    (p : Progress α n) :
    SameResult (round model store config none (p.after earlier))
      (Turn.after earlier <$> round model store config none p) := by
  rw [round, round, map_bind]
  refine (sameResult_visit yields _ _ _).bind fun visited => ?_
  obtain ⟨beta, s⟩ := visited
  simp only [map_bind, p.evaluated_after]
  refine (sameResult_printFrom _ _ _ _).bind fun _ => ?_
  refine (sameResult_printFrom _ _ _ _).bind fun _ => ?_
  refine (sameResult_printFrom _ _ _ _).bind fun _ => ?_
  refine (related_result (assess config s)).bind fun verdict => ?_
  exact sameResult_follow_after earlier _ verdict

/-- Nor does an iteration. The induction is on the evaluations that are left. -/
theorem sameResult_iterate_after (yields : model.Yields store f) (earlier : List (Vec α n))
    (remaining : Nat) (p : Progress α n) :
    SameResult (iterate model store config none remaining (p.after earlier))
      (FitResult.after earlier <$> iterate model store config none remaining p) := by
  induction remaining generalizing p with
  | zero =>
    rw [iterate, iterate, map_pure, p.result_after]
    exact related_pure _
  | succ remaining ih =>
    rw [iterate_succ_eq_round, iterate_succ_eq_round, map_bind]
    refine Related.bind_map (sameResult_round_after yields earlier p) fun turn => ?_
    cases turn with
    | inl q => exact ih q
    | inr r => exact related_pure _

end Rounds

/-- The iterates that led to the place where some rounds end. -/
theorem exists_keeps_of_rounds {start : Vec α n}
    (returned : Returns (rounds model store config none k (.start true start)) w (.inl q) w') :
    ∃ earlier, Keeps earlier q := by
  refine rounds_induction (I := fun p _ => ∃ earlier, Keeps earlier p) (F := fun _ _ => True)
    (fun {p turn _ _} here rounded => ?_) ⟨[], keeps_start start⟩ returned
  obtain ⟨earlier, keeps⟩ := here
  obtain ⟨-, beta, s, _, visited, -, followed⟩ := exists_visit_of_round rounded
  obtain ⟨rfl, -⟩ := visit_eq_of_looksOnly Observer.looksOnly_of_none visited
  cases followed with
  | stopped => trivial
  | shortStep => trivial
  | stepped => exact ⟨_, keeps.stepped _ _⟩

/-- An iteration with an evaluation to go goes on as one that starts where it stands, with the
iterates that led there put in front. -/
theorem Keeps.iterate_eq (keeps : Keeps earlier p) (d : Nat) :
    iterate model store config none (d + 1) p =
      iterate model store config none (d + 1) ((Progress.start true p.beta).after earlier) := by
  obtain ⟨evaluations, history⟩ := keeps
  -- The total of the last balance is written over before anything reads it.
  have placed : p.evaluated = ((Progress.start true p.beta).after earlier).evaluated := by
    funext beta absBalance
    rw [Progress.evaluated, Progress.evaluated, evaluations, history, List.reverse_append]
    rfl
  rw [iterate_succ_eq_round, iterate_succ_eq_round, round, round, placed, evaluations]
  rfl

/-- **From any evaluated iterate on, an iteration is one that starts there.** The iterates before it
are put in front of what that one returns. -/
theorem exists_resumed (yields : model.Yields store f) (kept : config.history = true)
    {start : Vec α n} (returned : Returns (newton model store config none start) w r w')
    (evaluated : k < r.iterations) :
    ∃ earlier b r₁, earlier.length = k ∧ r = r₁.after earlier ∧ ∀ w₁, ∃ w₂,
      Returns (iterate model store config none (config.maxIter - k) (.start true b)) w₁ r₁ w₂ := by
  have within : r.iterations ≤ config.maxIter := (iterations_of_newton returned).1
  obtain ⟨d, remaining⟩ : ∃ d, config.maxIter - k = d + 1 := ⟨config.maxIter - k - 1, by omega⟩
  have finite : start.isFinite = true := by
    by_contra broken
    rw [newton, if_neg broken] at returned
    obtain ⟨rfl, -⟩ := returns_pure_iff.1 returned
    cases evaluated
  rw [newton, if_pos finite, kept, show config.maxIter = k + (d + 1) by omega, iterate_add,
    returns_bind_iff] at returned
  obtain ⟨turn, w₁, before, rest⟩ := returned
  cases turn with
  | inr ended =>
    -- An iteration that ends within `k` rounds has made no more than `k` evaluations.
    obtain ⟨rfl, -⟩ := returns_pure_iff.1 rest
    have few : ended.iterations ≤ 0 + k :=
      (iterations_of_iterate (returns_iterate_iff.2 ⟨.inr ended, before, rfl⟩)).1
    omega
  | inl q =>
    obtain ⟨earlier, keeps⟩ := exists_keeps_of_rounds before
    have number : q.evaluations = 0 + k := (evaluations_of_rounds before).1
    have length : earlier.length = k := by
      rw [← keeps.evaluations, number, Nat.zero_add]
    change Returns (iterate model store config none (d + 1) q) w₁ r w' at rest
    rw [keeps.iterate_eq] at rest
    obtain ⟨w₂, put⟩ := (sameResult_iterate_after yields earlier (d + 1) _).returns rest w₁
    obtain ⟨r₁, resumed, rfl⟩ := returns_map_iff.1 put
    rw [remaining]
    refine ⟨earlier, q.beta, r₁, length, rfl, fun w₃ => ?_⟩
    exact (sameResult_iterate yields _ _).returns resumed w₃

/-- An iteration that is not ended by its bound makes one more evaluation at least. -/
theorem evaluations_lt_of_iterate
    (returned : Returns (iterate model store config none k p) w r w')
    (ended : r.outcome ≠ .exhausted) : p.evaluations < r.iterations := by
  cases k with
  | zero =>
    obtain ⟨rfl, -⟩ := returns_pure_iff.1 returned
    exact absurd rfl ended
  | succ k =>
    rw [iterate_succ_eq_round, returns_bind_iff] at returned
    obtain ⟨turn, w₁, rounded, rest⟩ := returned
    have number : turn.result.iterations = p.evaluations + 1 := (adds_of_round rounded).iterations
    cases turn with
    | inl q =>
      obtain ⟨last, rounded, rfl⟩ := returns_iterate_iff.1 rest
      have later : q.evaluations ≤ _ := (extends_of_rounds rounded).iterations
      exact Nat.lt_of_lt_of_le (Nat.lt_of_succ_le number.ge) later
    | inr ended =>
      obtain ⟨rfl, -⟩ := returns_pure_iff.1 rest
      exact Nat.lt_of_succ_le number.ge

/-- An iteration that ends after one evaluation, and not because of its bound, is one round. -/
theorem round_of_iterate (returned : Returns (iterate model store config none (d + 1) p) w r w')
    (ended : r.outcome ≠ .exhausted) (one : r.iterations = p.evaluations + 1) :
    Returns (round model store config none p) w (.inr r) w' := by
  rw [iterate_succ_eq_round, returns_bind_iff] at returned
  obtain ⟨turn, w₁, rounded, rest⟩ := returned
  cases turn with
  | inl q =>
    have number : q.evaluations = p.evaluations + 1 := (adds_of_round rounded).iterations
    have more := evaluations_lt_of_iterate rest ended
    omega
  | inr r =>
    obtain ⟨rfl, rfl⟩ := returns_pure_iff.1 rest
    exact rounded

/-- An iteration that keeps its history returns it with its first iterate in front. -/
theorem exists_history_of_iterate {b : Vec α n}
    (returned : Returns (iterate model store config none k (.start true b)) w r w') :
    ∃ later, r.history = some (b :: later) := by
  obtain ⟨turn, rounded, rfl⟩ := returns_iterate_iff.1 returned
  exact (extends_of_rounds rounded).history

theorem exists_history_of_newton (kept : config.history = true) {start : Vec α n}
    (returned : Returns (newton model store config none start) w r w') :
    ∃ later, r.history = some (start :: later) := by
  rw [newton, kept] at returned
  split at returned
  · exact exists_history_of_iterate returned
  · obtain ⟨rfl, -⟩ := returns_pure_iff.1 returned
    exact ⟨[], rfl⟩

/-- An iteration that was not ended by a step or by its bound returns the coefficients of its last
evaluation. From there it comes to the same end at once, under every bound. -/
theorem exists_ended (yields : model.Yields store f) (kept : config.history = true)
    {start : Vec α n} (returned : Returns (newton model store config none start) w r w')
    (evaluated : 1 ≤ r.iterations)
    (rule : r.outcome = .converged ∧ Scalar.le r.absBalance config.balanceTol = true ∨
      ∃ reason, r.outcome = .diverged reason) (maxIter : Nat) (w₁ : World σ α) :
    ∃ w₂, Returns (iterate model store config none (maxIter + 1) (.start true r.beta)) w₁
      ⟨r.outcome, r.beta, 1, r.absBalance, some [r.beta]⟩ w₂ := by
  obtain ⟨last, counted⟩ := Nat.exists_eq_add_of_le' evaluated
  have within : r.iterations ≤ config.maxIter := (iterations_of_newton returned).1
  obtain ⟨d, remaining⟩ : ∃ d, config.maxIter - last = d + 1 :=
    ⟨config.maxIter - last - 1, by omega⟩
  obtain ⟨earlier, b, r₁, length, rfl, resumed⟩ :=
    exists_resumed yields kept returned (k := last) (by omega)
  rw [remaining] at resumed
  obtain ⟨w₂, resumed⟩ := resumed w₁
  change earlier.length + r₁.iterations = last + 1 at counted
  have one : r₁.iterations = 0 + 1 := by omega
  have ended : r₁.outcome ≠ .exhausted := by
    rcases rule with ⟨converged, -⟩ | ⟨reason, diverged⟩
    · exact fun exhausted => nomatch exhausted.symm.trans converged
    · exact fun exhausted => nomatch exhausted.symm.trans diverged
  have rounded := round_of_iterate resumed ended one
  obtain ⟨-, beta, s, _, visited, -, followed⟩ := exists_visit_of_round rounded
  obtain ⟨rfl, -⟩ := visit_eq_of_looksOnly Observer.looksOnly_of_none visited
  cases followed with
  | stopped =>
    refine ⟨w₂, ?_⟩
    rw [iterate_succ_eq_round]
    exact rounded.bind (returns_pure_iff.2 ⟨rfl, rfl⟩)
  | shortStep assessed =>
    -- A step is asked for only out of balance.
    exfalso
    cases assessed_of_assess assessed with
    | solved _ above =>
      rcases rule with ⟨-, within⟩ | ⟨reason, diverged⟩
      · exact above within
      · cases diverged

/-- The coefficients of an iteration that converged within the tolerance of the balance are finite.
-/
theorem isFinite_of_within [Scalar.Propagates α] {start : Vec α n}
    (returned : Returns (newton model store config none start) w r w')
    (converged : r.outcome = .converged)
    (within : Scalar.le r.absBalance config.balanceTol = true) :
    r.beta.isFinite = true ∧ 1 ≤ r.iterations := by
  by_cases finite : start.isFinite = true
  case neg =>
    rw [newton, if_neg finite] at returned
    obtain ⟨rfl, -⟩ := returns_pure_iff.1 returned
    cases converged
  case pos =>
    cases concluded_of_newton finite returned with
    | exhausted _ result =>
      subst result
      cases converged
    | shortStep _ _ assessed _ result =>
      subst result
      cases assessed_of_assess assessed with
      | solved _ above => exact absurd within above
    | @stopped p w₁ w₂ _ _ _ here visited assessed result =>
      subst result
      obtain rfl : _ = Outcome.converged := converged
      obtain ⟨rfl, -⟩ := visit_eq_of_looksOnly Observer.looksOnly_of_none visited
      have balanced : Scalar.isFinite _ = true := isFinite_of_assess assessed (by
        intro same
        cases same)
      exact ⟨isFinite_of_evaluated Observer.looksOnly_of_none
        ⟨p, w₁, w₂, here, rfl, rfl, visited⟩ balanced, Nat.le_add_left 1 _⟩

/-- **Iterations start anew.** An iteration that keeps its history can be started again from any
finite iterate `b` that it has evaluated, with the evaluations that were left there. Then it returns
what it returned before, without the evaluations and the iterates before `b`. If it converged within
the tolerance of the balance, or diverged at finite coefficients, then from these it comes to the
same end at once, under every bound. -/
theorem restart_of_newton [Scalar.Propagates α] (yields : model.Yields store f)
    (kept : config.history = true) {start : Vec α n} {u : σ}
    (returned : (Run.start u (newton model store config none start)).1 = .ok r) :
    (∃ past, r.history = some past ∧ ∀ k < r.iterations, ∃ b, past[k]? = some b ∧
      (b.isFinite = true → ∀ u',
        (Run.start u' (newton model store { config with maxIter := config.maxIter - k } none b)).1 =
          .ok { r with iterations := r.iterations - k, history := some (past.drop k) })) ∧
    (r.outcome = .converged ∧ Scalar.le r.absBalance config.balanceTol = true ∨
        (∃ reason, r.outcome = .diverged reason) ∧ r.beta.isFinite = true ∧ 1 ≤ r.iterations →
      ∀ maxIter, 1 ≤ maxIter → ∀ u',
        (Run.start u' (newton model store { config with maxIter := maxIter } none r.beta)).1 =
          .ok ⟨r.outcome, r.beta, 1, r.absBalance, some [r.beta]⟩) := by
  obtain ⟨w', returned⟩ := start_eq_ok_iff.1 returned
  constructor
  · obtain ⟨after, history⟩ := exists_history_of_newton kept returned
    refine ⟨start :: after, history, fun k evaluated => ?_⟩
    generalize start :: after = past at history
    obtain ⟨earlier, b, r₁, rfl, rfl, resumed⟩ := exists_resumed yields kept returned evaluated
    obtain ⟨w₂, here⟩ := resumed w'
    obtain ⟨later, kept₁⟩ := exists_history_of_iterate here
    obtain rfl : earlier ++ b :: later = past := by
      rw [FitResult.after, kept₁] at history
      exact Option.some.inj history
    refine ⟨b, by simp, fun finite u' => start_eq_ok_iff.2 ?_⟩
    rw [newton_withMaxIter _ finite, kept, List.drop_left, ← FitResult.eq_of_after earlier kept₁]
    exact resumed _
  · intro rule maxIter one u'
    obtain ⟨finite, evaluated⟩ : r.beta.isFinite = true ∧ 1 ≤ r.iterations := by
      rcases rule with ⟨converged, within⟩ | ⟨-, finite, evaluated⟩
      · exact isFinite_of_within returned converged within
      · exact ⟨finite, evaluated⟩
    obtain ⟨d, rfl⟩ := Nat.exists_eq_add_of_le' one
    rw [start_eq_ok_iff, newton_withMaxIter _ finite, kept]
    exact exists_ended yields kept returned evaluated (rule.imp_right And.left) d _

/-- From minus two Poisson regression comes to one and from there to one half, where it is in balance.
So it does when it is started again from one, and from one half it stops at once. -/
theorem restart_of_newton_counts :
    let half : Vec Ranged 1 := .replicate 1 (.ofRat (1 / 2))
    let run (maxIter : Nat) (start : Vec Ranged 1) := (Run.start () (newton countModel oneCount
      { plainConfig with maxIter := maxIter } none start)).1
    run 5 (coefficient (-2)) =
        .ok ⟨.converged, half, 3, 0, some [coefficient (-2), coefficient 1, half]⟩ ∧
      run 4 (coefficient 1) = .ok ⟨.converged, half, 2, 0, some [coefficient 1, half]⟩ ∧
        run 1 half = .ok ⟨.converged, half, 1, 0, some [half]⟩ := by
  intro half run
  have whole : run 5 (coefficient (-2)) =
      .ok ⟨.converged, half, 3, 0, some [coefficient (-2), coefficient 1, half]⟩ := by
    decide +kernel
  have yields : countModel.Yields oneCount (Model.compute (n := 1) _ oneCount) :=
    Model.yields_lift _ oneCount
  obtain ⟨⟨past, history, again⟩, atOnce⟩ := restart_of_newton yields rfl whole
  cases history
  obtain ⟨b, found, restarted⟩ := again 1 (by decide)
  cases found
  exact ⟨whole, restarted (by decide +kernel) (), atOnce (.inl ⟨rfl, by decide +kernel⟩) 1
    (by decide) ()⟩

end Newton

end BalanceFit
