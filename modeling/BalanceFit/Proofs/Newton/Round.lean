import BalanceFit.Proofs.Newton.Visit

/-!
# Iterations round by round

An iteration goes through rounds. A round visits the iterate where the iteration stands, assesses
the system there, and leads to the next iterate or to the end. The bound on evaluations says how
many rounds there may be and plays no other part, so an iteration with a larger bound begins with
the rounds of one with a smaller bound.

## Main definitions

* `Newton.round`, `Newton.rounds` : one round, and some rounds one after the other
* `Newton.Followed` : what can follow from the system at an iterate
* `Model.Yields` : a model whose results are those of a function, whatever it does besides
* `Newton.Logs` : a log that the user's code keeps of the evaluations

## Main statements

* `Newton.iterate_add` : an iteration is some of its rounds and then the iteration from there
* `Newton.exists_visit_of_round` : a round that returns, taken apart
* `Newton.rounds_induction` : what every round preserves is preserved by any number of rounds
-/

namespace BalanceFit

variable {α σ : Type} {n : Nat}

/-- Over a store, and at vectors of one size, the model yields what a function says: a system or a
fault. What it does to the user's state is left open. -/
def Model.Yields [Scalar α] (model : Model (Act σ) α) (store : Store α)
    (f : Vec α n → Except Fault (System α n)) : Prop :=
  ∀ beta u, ((model.evaluate store (.ofVec beta) System.zero).run.run u).1 = f beta

/-- What a pure model computes over a store. -/
def Model.compute [Scalar α] (model : Model (Except Fault) α) (store : Store α) (beta : Vec α n) :
    Except Fault (System α n) :=
  match model.evaluate? with
  | some f => f n store (.ofVec beta) System.zero
  | none => .error .noCapability

/-- A pure model yields what it computes. -/
theorem Model.yields_lift [Scalar α] (model : Model (Except Fault) α) (store : Store α) :
    (model.lift : Model (Act σ) α).Yields store (model.compute (n := n) store) := by
  intro beta u
  rw [evaluate, lift, compute]
  cases model.evaluate? <;> rfl

/-- Evaluating a pure model fails or gives what it computes, and does nothing else. -/
theorem Model.act_evaluate_lift [Scalar α] (model : Model (Except Fault) α) (store : Store α)
    (beta : Vec α n) :
    Run.act (model.lift.evaluate store (.ofVec beta) System.zero) =
      (Run.ofExcept (model.compute store beta) : Run σ α (System α n)) := by
  rw [evaluate, lift, compute.eq_def]
  cases model.evaluate? <;> rfl

namespace Newton

open Run

variable [Scalar α]

/-- Where a round leads to: the place where the iteration stands then, or its result. -/
abbrev Turn (α : Type) (n : Nat) := Progress α n ⊕ FitResult (Vec α n) α

/-- The result of an iteration that is allowed no further round. -/
def Turn.result : Turn α n → FitResult (Vec α n) α :=
  Sum.elim (Progress.result · .exhausted) id

/-- What follows from a verdict: a stop and a short step end the iteration. -/
def follow (config : Config α) (p : Progress α n) : Verdict α n → Run σ α (Turn α n)
  | .stop outcome => return .inr (p.result outcome)
  | .step delta => do
    Run.printFrom 1 config.verbosity (.step delta.absTotal)
    if Scalar.le delta.absTotal config.stepTol then return .inr ((p.stepped delta).result .converged)
    else return .inl (p.stepped delta)

/-- What is printed of an iterate that was evaluated. -/
def report (config : Config α) (p : Progress α n) (beta : Vec α n) (s : System α n) :
    Run σ α Unit := do
  Run.printFrom 1 config.verbosity (.iteration p.evaluations p.absBalance)
  Run.printFrom 2 config.verbosity (.coefficients beta.toList)
  Run.printFrom 2 config.verbosity (.balance s.balance.toList)

/-- One round. -/
def round (model : Model (Act σ) α) (store : Store α) (config : Config α)
    (observer : Option (Observer σ α)) (p : Progress α n) : Run σ α (Turn α n) := do
  let (beta, s) ← visit model store config observer (p.evaluations + 1) p.beta
  let p := p.evaluated beta s.balance.absTotal
  Run.printFrom 1 config.verbosity (.iteration p.evaluations p.absBalance)
  Run.printFrom 2 config.verbosity (.coefficients beta.toList)
  Run.printFrom 2 config.verbosity (.balance s.balance.toList)
  follow config p (← Run.ofExcept (assess config s))

/-- As many rounds as the number says, unless the iteration ends before. -/
def rounds (model : Model (Act σ) α) (store : Store α) (config : Config α)
    (observer : Option (Observer σ α)) : Nat → Progress α n → Run σ α (Turn α n)
  | 0, p => return .inl p
  | k + 1, p => do
    match ← round model store config observer p with
    | .inl q => rounds model store config observer k q
    | .inr r => return .inr r

variable {model : Model (Act σ) α} {store : Store α} {config : Config α}
  {observer : Option (Observer σ α)} {p q : Progress α n} {r : FitResult (Vec α n) α}
  {turn : Turn α n} {w w' : World σ α} {k : Nat}

section Equations

variable (model store config observer)

/-- An iteration is a round and then, unless that was the last one, the iteration from there. -/
theorem iterate_succ_eq_round (remaining : Nat) (p : Progress α n) :
    iterate model store config observer (remaining + 1) p =
      round model store config observer p >>=
        Sum.elim (iterate model store config observer remaining) pure := by
  have concluded (p : Progress α n) (verdict : Verdict α n) :
      conclude model store config observer remaining p verdict =
        follow config p verdict >>=
          Sum.elim (iterate model store config observer remaining) pure := by
    cases verdict with
    | stop outcome => rfl
    | step delta =>
      rw [conclude, follow, bind_assoc]
      congr 1
      funext _
      split <;> rfl
  rw [iterate_succ, round]
  simp only [bind_assoc, concluded]

/-- **An iteration is some of its rounds and then the iteration from there.** The induction is on
the number of these rounds. -/
theorem iterate_add (k remaining : Nat) (p : Progress α n) :
    iterate model store config observer (k + remaining) p =
      rounds model store config observer k p >>=
        Sum.elim (iterate model store config observer remaining) pure := by
  induction k generalizing p with
  | zero =>
    rw [Nat.zero_add, rounds, pure_bind]
    rfl
  | succ k ih =>
    rw [Nat.succ_add, iterate_succ_eq_round, rounds, bind_assoc]
    congr 1
    funext turn
    cases turn with
    | inl q => exact ih q
    | inr r => rfl

/-- An iteration gives the result that its rounds lead to. -/
theorem iterate_eq_map_rounds (k : Nat) (p : Progress α n) :
    iterate model store config observer k p =
      Turn.result <$> rounds model store config observer k p := by
  have split := iterate_add model store config observer k 0 p
  rw [Nat.add_zero] at split
  rw [split, map_eq_pure_bind]
  congr 1
  funext turn
  cases turn <;> rfl

/-- In an iteration the bound on evaluations counts through the rounds that remain alone. -/
theorem iterate_withMaxIter (maxIter remaining : Nat) (p : Progress α n) :
    iterate model store { config with maxIter := maxIter } observer remaining p =
      iterate model store config observer remaining p := by
  induction remaining generalizing p with
  | zero => rfl
  | succ remaining ih =>
    rw [iterate_succ_eq_round, iterate_succ_eq_round]
    have rest : iterate model store { config with maxIter := maxIter } observer remaining =
        iterate model store config observer remaining := funext ih
    rw [rest]
    rfl

end Equations

/-- A log, read off the user's state, to which every evaluation adds the coefficients that it is made
at, and which the observer leaves as it is. -/
structure Logs (model : Model (Act σ) α) (store : Store α) (observer : Option (Observer σ α))
    (n : Nat) (log : σ → List (List α)) : Prop where
  evaluation : ∀ (beta : Vec α n) (u u' : σ) (s : System α n),
    (model.evaluate store (.ofVec beta) System.zero).run.run u = (.ok s, u') →
      log u' = log u ++ [beta.toList]
  observation : ∀ o ∈ observer, o.Leaves n log

/-- A visit adds the iterate to the log. -/
theorem Logs.visited {log : σ → List (List α)} (logs : Logs model store observer n log)
    {b beta : Vec α n} {s t : System α n} {u : σ}
    (visited : Visited model store config observer b w beta s w' t u) :
    log w'.user = log w.user ++ [b.toList] :=
  (visited.left log logs.observation).trans (logs.evaluation b _ _ _ visited.ran)

/-- What can follow from the system at an iterate, once it was evaluated. -/
inductive Followed (config : Config α) (p : Progress α n) (s : System α n) : Turn α n → Prop
  /-- The assessment is a stop. -/
  | stopped {outcome : Outcome} (assessed : assess config s = .ok (.stop outcome)) :
    Followed config p s (.inr (p.result outcome))
  /-- A short step ends the iteration. -/
  | shortStep {delta : Vec α n} (assessed : assess config s = .ok (.step delta))
    (short : Scalar.le delta.absTotal config.stepTol = true) :
    Followed config p s (.inr ((p.stepped delta).result .converged))
  /-- After any other step it goes on. -/
  | stepped {delta : Vec α n} (assessed : assess config s = .ok (.step delta))
    (long : ¬ Scalar.le delta.absTotal config.stepTol = true) :
    Followed config p s (.inl (p.stepped delta))

/-- A round that returns, taken apart: the visit, the report, the assessment, and what follows. -/
theorem exists_parts_of_round
    (returned : Returns (round model store config observer p) w turn w') :
    ∃ beta s w₁ w₂ verdict,
      Returns (visit model store config observer (p.evaluations + 1) p.beta) w (beta, s) w₁ ∧
        Returns (report config (p.evaluated beta s.balance.absTotal) beta s) w₁ () w₂ ∧
          assess config s = .ok verdict ∧
            Returns (follow config (p.evaluated beta s.balance.absTotal) verdict) w₂ turn w' := by
  rw [round, returns_bind_iff] at returned
  obtain ⟨⟨beta, s⟩, w₁, visited, returned⟩ := returned
  obtain ⟨_, w₂, first, returned⟩ := returns_bind_iff.1 returned
  obtain ⟨_, w₃, second, returned⟩ := returns_bind_iff.1 returned
  obtain ⟨_, w₄, third, returned⟩ := returns_bind_iff.1 returned
  obtain ⟨verdict, w₅, decided, returned⟩ := returns_bind_iff.1 returned
  obtain ⟨assessed, rfl⟩ := returns_ofExcept_iff.1 decided
  exact ⟨beta, s, w₁, w₄, verdict, visited, first.bind (second.bind third), assessed, returned⟩

omit [Scalar α] in
/-- A report adds lines, which takes a verbosity that is a level. -/
theorem level_of_report {beta : Vec α n} {s : System α n}
    (reported : Returns (report config p beta s) w () w') :
    (∃ level, config.verbosity = .level level) ∧ UpToLines w w' := by
  obtain ⟨_, w₁, first, reported⟩ := returns_bind_iff.1 reported
  obtain ⟨_, w₂, second, third⟩ := returns_bind_iff.1 reported
  exact ⟨level_of_printFrom first, (upToLines_of_printFrom first).trans
    ((upToLines_of_printFrom second).trans (upToLines_of_printFrom third))⟩

/-- A round that returns has visited the iterate, and leads to what follows from the system there.
The reports add lines, which takes a verbosity that is a level. -/
theorem exists_visit_of_round
    (returned : Returns (round model store config observer p) w turn w') :
    (∃ level, config.verbosity = .level level) ∧ ∃ beta s w₁,
      Returns (visit model store config observer (p.evaluations + 1) p.beta) w (beta, s) w₁ ∧
        UpToLines w₁ w' ∧ Followed config (p.evaluated beta s.balance.absTotal) s turn := by
  obtain ⟨beta, s, w₁, w₂, verdict, visited, reported, assessed, returned⟩ :=
    exists_parts_of_round returned
  obtain ⟨leveled, reported⟩ := level_of_report reported
  refine ⟨leveled, beta, s, w₁, visited, ?_⟩
  cases verdict with
  | stop outcome =>
    obtain ⟨rfl, rfl⟩ := returns_pure_iff.1 returned
    exact ⟨reported, .stopped assessed⟩
  | step delta =>
    obtain ⟨_, w₃, printed, returned⟩ := returns_bind_iff.1 returned
    have reported := reported.trans (upToLines_of_printFrom printed)
    split at returned
    case isTrue short =>
      obtain ⟨rfl, rfl⟩ := returns_pure_iff.1 returned
      exact ⟨reported, .shortStep assessed short⟩
    case isFalse long =>
      obtain ⟨rfl, rfl⟩ := returns_pure_iff.1 returned
      exact ⟨reported, .stepped assessed long⟩

/-- **What every round preserves is preserved by any number of rounds**: `I` holds of the places
where the iteration stands and the worlds there, and `F` of its result and the world at the end. -/
theorem rounds_induction {I : Progress α n → World σ α → Prop}
    {F : FitResult (Vec α n) α → World σ α → Prop}
    (step : ∀ {p turn w w'}, I p w → Returns (round model store config observer p) w turn w' →
      Sum.elim (I · w') (F · w') turn)
    (here : I p w) (returned : Returns (rounds model store config observer k p) w turn w') :
    Sum.elim (I · w') (F · w') turn := by
  induction k generalizing p w with
  | zero =>
    obtain ⟨rfl, rfl⟩ := returns_pure_iff.1 returned
    exact here
  | succ k ih =>
    rw [rounds, returns_bind_iff] at returned
    obtain ⟨first, w₁, rounded, returned⟩ := returned
    have next := step here rounded
    cases first with
    | inl q => exact ih next returned
    | inr r =>
      obtain ⟨rfl, rfl⟩ := returns_pure_iff.1 returned
      exact next

/-- An iteration that returns has gone through its rounds. -/
theorem returns_iterate_iff :
    Returns (iterate model store config observer k p) w r w' ↔
      ∃ turn, Returns (rounds model store config observer k p) w turn w' ∧ turn.result = r := by
  rw [iterate_eq_map_rounds, returns_map_iff]

end Newton

end BalanceFit
