import BalanceFit.Proofs.Newton.History
import BalanceFit.Proofs.Run.Lines

/-!
# What an iteration prints

From the first level of verbosity on, an iteration prints a line for each evaluation, with its
number, and a line for each step. What it prints at some level is an excerpt of what it prints at
the highest one, whether it keeps its history or not, and whatever a passive observer does besides
looking on. So both settings and the observer can be exchanged together: the result is the same up
to the history.

## Main definitions

* `FitResult.keeping`, `Newton.Progress.keeping` : a result, or a place where an iteration stands,
  with its history or without it
* `Newton.Reported` : how many evaluations and steps were reported since some world

## Main statements

* `Newton.related_newton_level` : iterations of a pure model at some level and at the highest one
* `Newton.reported_of_round` : the lines of a round
* `Newton.reported_of_newton` : the lines of an iteration
-/

namespace BalanceFit

/-- The result with its history, if that is kept. -/
def FitResult.keeping {V α : Type} (keep : Bool) (r : FitResult V α) : FitResult V α :=
  { r with history := if keep then r.history else none }

/-- The parameters of a fit with other settings of what is reported. -/
def Config.reporting {α : Type} (c : Config α) (v : Int) (keep : Bool) : Config α :=
  { c with verbosity := .level v, history := keep }

namespace Newton

open Act Run

variable {α σ : Type} {n : Nat}

/-- The place with the iterates that led there, if they are kept. -/
def Progress.keeping (keep : Bool) (p : Progress α n) : Progress α n :=
  { p with history := if keep then p.history else none }

theorem Progress.keeping_stepped [Sub α] (keep : Bool) (p : Progress α n) (delta : Vec α n) :
    (p.keeping keep).stepped delta = (p.stepped delta).keeping keep := by
  cases keep <;> rfl

theorem Progress.keeping_result (keep : Bool) (p : Progress α n) (outcome : Outcome) :
    (p.keeping keep).result outcome = (p.result outcome).keeping keep := by
  cases keep <;> rfl

theorem Progress.start_eq_keeping [Scalar α] (keep : Bool) (beta : Vec α n) :
    start keep beta = (start true beta).keeping keep :=
  rfl

variable [Scalar α]

section Levels

variable {m : Model (Except Fault) α} {store : Store α} {config : Config α} {v : Int} {keep : Bool}
  {observer observer' : Option (Observer σ α)}

/-- A passive observer hands on what it is shown, and prints nothing. -/
theorem exists_visit_of_passive (passive : ∀ o ∈ observer, o.Passive) (call : Nat) (b : Vec α n)
    (w : World σ α) :
    ∃ x w', w'.lines = w.lines ∧
      (visit m.lift store config observer call b).run.run w = (x, w') ∧
        x = (m.compute store b).map fun t => (b, t.regularize config.epsilon b) := by
  rw [visit, Model.act_evaluate_lift]
  cases m.compute store b with
  | error e => exact ⟨_, w, rfl, rfl, rfl⟩
  | ok t =>
    rw [ofExcept_ok, pure_bind]
    cases observer with
    | none => exact ⟨_, w, rfl, rfl, rfl⟩
    | some o =>
      let s := t.regularize config.epsilon b
      let noted : World σ α := { w with visits := w.visits.push ⟨b.toList, s.balance.toList⟩ }
      obtain ⟨u, observed⟩ := passive o rfl call [n] b s.balance noted.user
      refine ⟨.ok (b, s), { noted with user := u }, rfl, ?_, rfl⟩
      change Returns _ w (b, s) _
      exact (returns_note_iff.2 rfl).bind
        ((returns_act_iff.2 ⟨u, observed, rfl⟩).bind (returns_pure_iff.2 ⟨rfl, rfl⟩))

/-- So visits agree with any passive observers, and keep excerpts. -/
theorem related_visit_level (passive : ∀ o ∈ observer, o.Passive)
    (passive' : ∀ o ∈ observer', o.Passive) (call : Nat) (b : Vec α n) :
    Related (Excerpt v) (visit m.lift store (config.reporting v keep) observer call b)
      (visit m.lift store (config.reporting 2 true) observer' call b) := by
  intro w w' excerpt
  obtain ⟨x, w₁, lines, visited, result⟩ := exists_visit_of_passive passive call b w
  obtain ⟨x', w₁', lines', visited', result'⟩ := exists_visit_of_passive passive' call b w'
  rw [visited, visited', result, result']
  refine ⟨rfl, ?_⟩
  rw [Excerpt, lines, lines']
  exact excerpt

/-- The iterations at some level and at the highest one, from the same place on. The induction is on
the evaluations that are left. -/
theorem related_iterate_level (passive : ∀ o ∈ observer, o.Passive)
    (passive' : ∀ o ∈ observer', o.Passive) (remaining : Nat) (p : Progress α n) :
    Related (Excerpt v)
      (iterate m.lift store (config.reporting v keep) observer remaining (p.keeping keep))
      (FitResult.keeping keep <$>
        iterate m.lift store (config.reporting 2 true) observer' remaining p) := by
  induction remaining generalizing p with
  | zero =>
    change Related _ (pure _) (pure _)
    rw [Progress.keeping_result]
    exact related_pure _
  | succ remaining ih =>
    rw [iterate_succ, iterate_succ]
    simp only [map_bind]
    refine (related_visit_level passive passive' _ _).bind fun (beta, s) => ?_
    refine (related_printFrom_level rfl).bind fun _ => ?_
    refine (related_printFrom_level rfl).bind fun _ => ?_
    refine (related_printFrom_level rfl).bind fun _ => ?_
    refine (related_result (assess config s)).bind fun verdict => ?_
    let q := p.evaluated beta s.balance.absTotal
    cases verdict with
    | stop outcome =>
      change Related _ (pure ((q.keeping keep).result outcome)) (pure _)
      rw [Progress.keeping_result]
      exact related_pure _
    | step delta =>
      rw [conclude, conclude, map_bind]
      refine (related_printFrom_level rfl).bind fun _ => ?_
      change Related _ (if Scalar.le delta.absTotal config.stepTol then
        pure (((q.keeping keep).stepped delta).result .converged)
        else iterate m.lift store (config.reporting v keep) observer remaining
          ((q.keeping keep).stepped delta)) (_ <$> if Scalar.le delta.absTotal config.stepTol then
        pure _ else _)
      rw [Progress.keeping_stepped, Progress.keeping_result]
      split
      · exact related_pure _
      · exact ih _

/-- **Iterations of a pure model at some level and at the highest one**: the results are the same up
to the history, and the lines are an excerpt. -/
theorem related_newton_level (passive : ∀ o ∈ observer, o.Passive)
    (passive' : ∀ o ∈ observer', o.Passive) (start : Vec α n) :
    Related (Excerpt v) (newton m.lift store (config.reporting v keep) observer start)
      (FitResult.keeping keep <$>
        newton m.lift store (config.reporting 2 true) observer' start) := by
  rw [newton, newton]
  change Related _ (if start.isFinite then _ else _) (_ <$> if start.isFinite then _ else _)
  split
  · exact related_iterate_level passive passive' config.maxIter (.start true start)
  · change Related _ (pure ((Progress.start keep start).result _)) (pure _)
    rw [Progress.start_eq_keeping, Progress.keeping_result]
    exact related_pure _

end Levels

section Counts

variable {model : Model (Act σ) α} {store : Store α} {config : Config α}
  {observer : Option (Observer σ α)} {p : Progress α n} {r : FitResult (Vec α n) α}
  {turn : Turn α n} {w₀ w w' : World σ α} {v : Int}

/-- Since a world, so many evaluations were reported, in their order, and so many steps. -/
structure Reported (w₀ : World σ α) (evaluations steps : Nat) (w : World σ α) : Prop where
  numbers : w.numbers = w₀.numbers ++ List.range' 1 evaluations
  steps : w.stepLines = w₀.stepLines + steps

/-- Of an iteration that has ended every evaluation was reported, and every step: as many as there
are evaluations, without the last one if the iteration ended in place. -/
def EndReported (config : Config α) (w₀ : World σ α) (r : FitResult (Vec α n) α) (w : World σ α) :
    Prop :=
  ∃ steps, steps + 1 = r.iterations + (if endsInPlace config r then 0 else 1) ∧
    Reported w₀ r.iterations steps w

omit [Scalar α] in
theorem reported_refl (w : World σ α) : Reported w 0 0 w :=
  ⟨(List.append_nil _).symm, rfl⟩

/-- Nothing is printed while an iterate is visited. -/
theorem lines_of_visit {call : Nat} {b beta : Vec α n} {s : System α n}
    (visited : Returns (visit model store config observer call b) w (beta, s) w') :
    w'.lines = w.lines := by
  rw [visit, returns_bind_iff] at visited
  obtain ⟨t, w₁, evaluated, visited⟩ := visited
  obtain ⟨u, -, rfl⟩ := returns_act_iff.1 evaluated
  cases observer with
  | none =>
    obtain ⟨-, rfl⟩ := returns_pure_iff.1 visited
    rfl
  | some o =>
    obtain ⟨_, w₂, noted, visited⟩ := returns_bind_iff.1 visited
    obtain rfl := returns_note_iff.1 noted
    obtain ⟨_, w₃, observed, visited⟩ := returns_bind_iff.1 visited
    obtain ⟨u', -, rfl⟩ := returns_act_iff.1 observed
    obtain ⟨-, rfl⟩ := returns_pure_iff.1 visited
    rfl

omit [Scalar α] in
/-- The report on an iterate counts an evaluation. -/
theorem Reported.evaluated {steps : Nat} {beta : Vec α n} {s : System α n}
    {absBalance : α} (before : Reported w₀ p.evaluations steps w) (loud : 1 ≤ v)
    (leveled : config.verbosity = .level v)
    (reported : Returns (report config (p.evaluated beta absBalance) beta s) w () w') :
    Reported w₀ (p.evaluations + 1) steps w' := by
  rw [report, leveled] at reported
  obtain ⟨_, w₁, first, reported⟩ := returns_bind_iff.1 reported
  -- The other two lines are not counted, whether they are printed or not.
  obtain ⟨numbers, stepLines⟩ := counts_of_printFrom loud first
  have uncounted : OnlyPrints Line.Uncounted (do
      printFrom 2 (.level v) (.coefficients beta.toList)
      printFrom 2 (.level v) (.balance s.balance.toList) : Run σ α Unit) :=
    (onlyPrints_printFrom ⟨rfl, rfl⟩ _ _).bind fun _ => onlyPrints_printFrom ⟨rfl, rfl⟩ _ _
  have rest := uncounted.adds reported
  constructor
  · rw [rest.numbers, numbers, before.numbers, List.range'_concat, List.append_assoc]
    simp [Line.number?, Progress.evaluated, Nat.add_comm]
  · rw [rest.stepLines, stepLines, before.steps]
    rfl

/-- What a round reports: an evaluation, and a step if it takes one. -/
theorem reported_of_round (loud : 1 ≤ v) (leveled : config.verbosity = .level v)
    (before : Reported w₀ p.evaluations p.evaluations w)
    (returned : Returns (round model store config observer p) w turn w') :
    Sum.elim (fun q => Reported w₀ q.evaluations q.evaluations w')
      (EndReported config w₀ · w') turn := by
  obtain ⟨beta, s, w₁, w₂, verdict, visited, reported, assessed, returned⟩ :=
    exists_parts_of_round returned
  have lines := lines_of_visit visited
  have before : Reported w₀ p.evaluations p.evaluations w₁ := by
    constructor
    · rw [World.numbers, lines]
      exact before.numbers
    · rw [World.stepLines, lines]
      exact before.steps
  have evaluated := before.evaluated loud leveled reported
  cases verdict with
  | stop outcome =>
    obtain ⟨rfl, rfl⟩ := returns_pure_iff.1 returned
    refine ⟨p.evaluations, ?_, evaluated⟩
    rw [endsInPlace_of_stop assessed]
    rfl
  | step delta =>
    rw [follow, leveled] at returned
    obtain ⟨_, w₃, printed, returned⟩ := returns_bind_iff.1 returned
    obtain ⟨numbers, stepLines⟩ := counts_of_printFrom loud printed
    have stepped : Reported w₀ (p.evaluations + 1) (p.evaluations + 1) w₃ := by
      constructor
      · rw [numbers, evaluated.numbers]
        exact List.append_nil _
      · rw [stepLines, evaluated.steps]
        rfl
    split at returned
    · obtain ⟨rfl, rfl⟩ := returns_pure_iff.1 returned
      refine ⟨p.evaluations + 1, ?_, stepped⟩
      rw [endsInPlace_of_step assessed]
      rfl
    · obtain ⟨rfl, rfl⟩ := returns_pure_iff.1 returned
      exact stepped

/-- **The lines of an iteration.** From the first level on, whatever model and observer do, an
iteration that returns reports its evaluations in order, and all its steps. -/
theorem reported_of_newton {start : Vec α n} (loud : 1 ≤ v) (leveled : config.verbosity = .level v)
    (returned : Returns (newton model store config observer start) w r w') :
    EndReported config w r w' := by
  rw [newton] at returned
  split at returned
  · obtain ⟨turn, rounded, rfl⟩ := returns_iterate_iff.1 returned
    have ended := rounds_induction
      (I := fun q w₁ => Reported w q.evaluations q.evaluations w₁) (F := EndReported config w)
      (fun before rounded => reported_of_round loud leveled before rounded)
      (reported_refl w) rounded
    cases turn with
    | inl q => exact ⟨q.evaluations, rfl, ended⟩
    | inr r => exact ended
  · obtain ⟨rfl, rfl⟩ := returns_pure_iff.1 returned
    exact ⟨0, rfl, reported_refl w⟩

end Counts

end Newton

end BalanceFit
