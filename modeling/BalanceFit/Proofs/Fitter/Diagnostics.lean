import BalanceFit.Proofs.Fitter.Independence
import BalanceFit.Proofs.Newton.Report

/-!
# What is reported makes no difference

A fit can be asked to print more or less, to keep its history, and to show every iterate to an
observer. With a pure model and a passive observer none of this changes the result, or the fault
that keeps the fit from a result. The lines at some level are those of the highest level that belong
there, so a fit that is asked for more prints all that it would have printed otherwise.

The fit at the highest level, with its history and a passive observer, serves as a reference: every
other fit is compared with it, and what the lines count is read off its records.

## Main definitions

* `Observer.idle` : the observer that does nothing

## Main statements

* `Fitter.related_solve_level` : fits at some level and at the highest one
* `Fitter.exists_iterates` : the iterates behind the lines of a fit
* `Fitter.solve_reporting` : fits with different settings of what is reported
-/

namespace BalanceFit

variable {α σ : Type}

/-- The observer that returns what it is shown, and does nothing else. -/
def Observer.idle : Observer σ α where
  observe _ _ beta balance := return (beta, balance)

theorem Observer.passive_idle : ∀ o ∈ some (idle : Observer σ α), o.Passive := by
  intro o member n call shape beta balance u
  cases member
  exact ⟨u, rfl⟩

/-- The fitter with other settings of what is reported. -/
def Fitter.reporting (f : Fitter σ α) (v : Int) (keep : Bool) : Fitter σ α :=
  { f with config := f.config.reporting v keep }

namespace Fitter

open Act Run

variable [Scalar α] [LeastSquares α] {m : Model (Except Fault) α} {f : Fitter σ α} {v v' : Int}
  {keep : Bool} {observer observer' : Option (Observer σ α)}

/-- **Fits of a pure model at some level and at the highest one**: the results are the same up to
the history, and the lines are an excerpt. -/
theorem related_solve_level (lifted : f.model = m.lift) (passive : ∀ o ∈ observer, o.Passive)
    (passive' : ∀ o ∈ observer', o.Passive) (v : Int) (keep : Bool) :
    Related (Excerpt v) ((f.reporting v keep).solve observer)
      (FitResult.keeping keep <$> (f.reporting 2 true).solve observer') := by
  rw [solve, solve]
  simp only [map_bind]
  refine (related_printFrom_level rfl).bind fun _ => ?_
  have started : Related (Excerpt v) (f.reporting v keep).warmStart
      (f.reporting 2 true).warmStart :=
    related_warmStart_of lifted lifted rfl fun _ level => related_printFrom_level level
  refine started.bind fun beta => ?_
  refine (related_printFrom_level rfl).bind fun _ => ?_
  change Related _ (newton f.model f.store _ observer _ >>= _)
    (newton f.model f.store _ observer' _ >>= _)
  rw [lifted]
  refine (Newton.related_newton_level passive passive' _).bind_map fun r => ?_
  refine (related_printFrom_level rfl).bind fun _ => ?_
  refine (related_printFrom_level rfl).bind fun _ => ?_
  have same : (r.keeping keep).map Vec.toList = (r.map Vec.toList).keeping keep := by
    cases keep <;> rfl
  rw [same, map_pure]
  exact related_pure _

/-- A warm start prints nothing that is counted. -/
theorem onlyPrints_warmStart (f : Fitter σ α) : OnlyPrints Line.Uncounted f.warmStart := by
  have prints {line : Line α} (uncounted : line.Uncounted) :
      OnlyPrints Line.Uncounted (printFrom 2 f.config.verbosity line : Run σ α Unit) :=
    onlyPrints_printFrom uncounted 2 f.config.verbosity
  rw [warmStart]
  cases f.store.log with
  | nil => exact onlyPrints_ofExcept (.error .nothingToFit)
  | cons first rest =>
    have round (s : Store α) (o : Observation α) :
        OnlyPrints Line.Uncounted (addLinked f.model s o) :=
      (onlyPrints_act _).bind fun _ => (onlyPrints_ofExcept _).bind fun _ => onlyPrints_pure _
    refine (onlyPrints_act _).bind fun dim => (OnlyPrints.foldlM round _ _).bind fun linked => ?_
    refine (onlyPrints_ofExcept _).bind fun beta => (prints ⟨rfl, rfl⟩).bind fun _ => ?_
    split
    · exact onlyPrints_pure beta
    · exact (prints ⟨rfl, rfl⟩).bind fun _ => onlyPrints_ofExcept _

/-- A fit that returns, taken apart: the warm start and the iteration from there. Nothing else that
it prints is counted. -/
theorem exists_newton_of_solve {r : FitResult (List α) α} {w w' : World σ α}
    (returned : Returns (f.solve observer) w r w') :
    ∃ beta q w₁ w₂ w₃ w₄, UpToLines w w₁ ∧ Returns f.warmStart w₁ beta w₂ ∧
      Returns (newton f.model f.store f.config observer (.ofList beta)) w₃ q w₄ ∧
        r = q.map Vec.toList ∧ w.Adds Line.Uncounted w₃ ∧ w₄.Adds Line.Uncounted w' := by
  rw [solve, returns_bind_iff] at returned
  obtain ⟨_, w₁, first, returned⟩ := returned
  obtain ⟨beta, w₂, started, returned⟩ := returns_bind_iff.1 returned
  obtain ⟨_, w₃, second, returned⟩ := returns_bind_iff.1 returned
  obtain ⟨q, w₄, iterated, returned⟩ := returns_bind_iff.1 returned
  obtain ⟨_, w₅, third, returned⟩ := returns_bind_iff.1 returned
  obtain ⟨_, w₆, fourth, returned⟩ := returns_bind_iff.1 returned
  obtain ⟨rfl, rfl⟩ := returns_pure_iff.1 returned
  have prints {k : Int} {line : Line α} (uncounted : line.Uncounted) {w w' : World σ α}
      (printed : Returns (printFrom k f.config.verbosity line) w () w') :
      w.Adds Line.Uncounted w' :=
    (onlyPrints_printFrom uncounted k f.config.verbosity).adds printed
  refine ⟨beta, q, w₁, w₂, w₃, w₄, upToLines_of_printFrom first, started, iterated, rfl, ?_, ?_⟩
  · have before := (prints ⟨rfl, rfl⟩ first).trans ((onlyPrints_warmStart f).adds started)
    exact before.trans (prints ⟨rfl, rfl⟩ second)
  · exact (prints ⟨rfl, rfl⟩ third).trans (prints ⟨rfl, rfl⟩ fourth)

/-- The iterates of a fit that has a result. -/
structure Walked (f : Fitter σ α) (m : Model (Except Fault) α) (u : σ) (r : FitResult (List α) α)
    {n : Nat} (iterates : List (Vec α n)) : Prop where
  /-- The first one is what the warm start gives, -/
  first : ∃ beta,
    (Run.start u f.warmStart).1 = .ok beta ∧ iterates.head?.map Vec.toList = some beta
  /-- each one after it is the one before less the Newton step there, -/
  steps : iterates.IsChain (Newton.StepsTo f.config (m.compute f.store))
  /-- and the last one is in the result. -/
  last : iterates.getLast?.map Vec.toList = some r.beta
  /-- There are as many iterates as evaluations, or one more. -/
  length : iterates.length = r.iterations + if Newton.endsInPlace f.config r then 0 else 1
  /-- The history consists of all iterates, if it is kept. -/
  history : r.history = if f.config.history then some (iterates.map Vec.toList) else none

/-- A fit that returns has gone through iterates: those in the history of the fit at the highest
level. -/
theorem exists_walked (lifted : f.model = m.lift) (passive : ∀ o ∈ observer, o.Passive) {u : σ}
    {r : FitResult (List α) α}
    (returned : (Run.start u ((f.reporting v keep).solve observer)).1 = .ok r) :
    ∃ n, ∃ iterates : List (Vec α n), (f.reporting v keep).Walked m u r iterates := by
  obtain ⟨same, -⟩ := related_solve_level lifted passive Observer.passive_idle v keep _ _
    (excerpt_start v u u)
  obtain ⟨w', reference⟩ := start_eq_ok_iff.1 (same.symm.trans returned)
  obtain ⟨r₀, solved, rfl⟩ := returns_map_iff.1 reference
  obtain ⟨beta, q, w₁, w₂, w₃, w₄, before, started, iterated, rfl, -⟩ :=
    exists_newton_of_solve solved
  -- The records of the iteration are known if it begins without a trace, which it does not look at.
  obtain ⟨w₅, iterated⟩ := (Newton.sameEffect_newton _ _ _ _ _).exists_returns iterated
    ⟨w₃.user, #[], #[]⟩ rfl
  have yields :
      (f.reporting 2 true).model.Yields (n := beta.length) f.store (m.compute f.store) := by
    rw [reporting, lifted]
    exact m.yields_lift f.store
  obtain ⟨past, history, recorded⟩ :=
    Newton.exists_recorded (Observer.passive_idle _ rfl |> Observer.Passive.looksOnly) yields rfl
      iterated
  refine ⟨beta.length, past, ⟨beta, ?_, ?_⟩, recorded.steps, ?_, recorded.length, ?_⟩
  · -- The warm start is the same at both levels.
    have quiet (line : Line α) : SameEffect (printFrom 2 (.level v) line : Run σ α Unit)
        (printFrom 2 (.level 2) line) :=
      (sameEffect_printFrom_level 2 v line).trans (sameEffect_printFrom_level 2 2 line).symm
    have warm : SameEffect (f.reporting v keep).warmStart (f.reporting 2 true).warmStart :=
      sameEffect_iff.2 (related_warmStart_of lifted lifted rfl fun line _ =>
        sameEffect_iff.1 (quiet line))
    exact start_eq_ok_iff.2 (warm.symm.exists_returns started ⟨u, #[], #[]⟩ before.user)
  · rw [recorded.first, Option.map_some, Vec.toList_ofList]
  · rw [recorded.last]
    rfl
  · cases keep with
    | false => rfl
    | true =>
      change Option.map _ q.history = some _
      rw [history]
      rfl

/-- **Fits with different settings of what is reported**. A pure model is fitted at two levels of
verbosity, with or without the history, and shown to any passive observers. The results are the same
up to the history, or so are the faults. What is printed at the lower level is part of what is
printed at the higher one, and below the level zero nothing is printed. From level one on the lines
of a fit that returns count the evaluations in their order, and all steps. -/
theorem solve_reporting (lifted : f.model = m.lift) (le : v ≤ v') (keep keep' : Bool)
    (passive : ∀ o ∈ observer, o.Passive) (passive' : ∀ o ∈ observer', o.Passive) (u u' : σ) :
    let run := Run.start u ((f.reporting v keep).solve observer)
    let run' := Run.start u' ((f.reporting v' keep').solve observer')
    run.1.map (FitResult.keeping false) = run'.1.map (FitResult.keeping false) ∧
      run.2.lines.toList.Sublist run'.2.lines.toList ∧ (v < 0 → run.2.lines = #[]) ∧
        (1 ≤ v → ∀ r, run.1 = .ok r → run.2.numbers = List.range' 1 r.iterations ∧
          ∃ n, ∃ iterates : List (Vec α n), (f.reporting v keep).Walked m u r iterates ∧
            run.2.stepLines + 1 = iterates.length) := by
  intro run run'
  let reference := Run.start u ((f.reporting 2 true).solve (some Observer.idle))
  -- Both fits are compared with the same one.
  have related (v : Int) (keep : Bool) {observer : Option (Observer σ α)}
      (passive : ∀ o ∈ observer, o.Passive) (u' : σ) :
      (Run.start u' ((f.reporting v keep).solve observer)).1 =
          reference.1.map (FitResult.keeping keep) ∧
        Excerpt v (Run.start u' ((f.reporting v keep).solve observer)).2 reference.2 := by
    have related := related_solve_level lifted passive Observer.passive_idle v keep _ _
      (excerpt_start v u' u)
    rwa [run_map] at related
  obtain ⟨result, excerpt⟩ := related v keep passive u
  obtain ⟨result', excerpt'⟩ := related v' keep' passive' u'
  refine ⟨?_, ?_, fun silent => ?_, fun loud r returned => ?_⟩
  · have forgotten (x : Except Fault (FitResult (List α) α)) (keep : Bool) :
        (x.map (FitResult.keeping keep)).map (FitResult.keeping false) =
          x.map (FitResult.keeping false) := by
      cases x <;> rfl
    rw [result, result', forgotten, forgotten]
  · rw [excerpt, excerpt']
    apply List.monotone_filter_right
    intro line printed
    rw [decide_eq_true_iff] at printed ⊢
    exact printed.trans le
  · rw [← Array.toList_eq_nil_iff, excerpt, List.filter_eq_nil_iff]
    intro line _ printed
    have nonneg := line.level_nonneg
    rw [decide_eq_true_iff] at printed
    omega
  · obtain ⟨n, iterates, walked⟩ := exists_walked lifted passive returned
    obtain ⟨w', solved⟩ := start_eq_ok_iff.1 returned
    obtain ⟨beta, q, w₁, w₂, w₃, w₄, -, -, iterated, rfl, before, after⟩ :=
      exists_newton_of_solve solved
    obtain ⟨steps, number, reported⟩ := Newton.reported_of_newton loud rfl iterated
    have ends : run.2 = w' := congrArg Prod.snd solved
    rw [ends]
    refine ⟨?_, n, iterates, walked, ?_⟩
    · rw [after.numbers, reported.numbers, before.numbers]
      rfl
    · rw [after.stepLines, reported.steps, before.stepLines, walked.length]
      exact (congrArg (· + 1) (Nat.zero_add steps)).trans number

/-- An observer that keeps the coefficients that it is shown. -/
def keepingAll : Observer (List (List Ranged)) Ranged where
  observe _ _ beta balance := do
    modify (· ++ [beta.toList])
    return (beta, balance)

/-- A line through the origin with a ridge takes one step. Quietly, without a history and alone, or
with all lines, the history and an observer, the fit is the same one. -/
theorem solve_reporting_line :
    let _ : LeastSquares Ranged := .regular
    let m : Model (Except Fault) Ranged := GeneralizedLinear.model ⟨some .linear, false⟩
    let config : Config Ranged := ⟨1, 0, 0, 0, 5, .level 0, false⟩
    let f : Fitter (List (List Ranged)) Ranged :=
      ⟨m.lift, config, .ofLog 1 [⟨[1], 1, 1⟩] (by simp)⟩
    let run := Run.start [] ((f.reporting 1 false).solve none)
    let run' := Run.start [] ((f.reporting 2 true).solve (some keepingAll))
    let third : Ranged := 1 / (1 + 1 + 1)
    run.1 = .ok ⟨.converged, [third], 2, 0, none⟩ ∧
      run.1.map (FitResult.keeping false) = run'.1.map (FitResult.keeping false) ∧
        run.2.lines.toList.Sublist run'.2.lines.toList ∧ run.2.numbers = [1, 2] ∧
          run.2.stepLines = 1 ∧ run'.2.user = [[1], [third]] := by
  intro _ m config f run run' third
  have result : run.1 = .ok ⟨.converged, [third], 2, 0, none⟩ := by decide +kernel
  have passive : ∀ o ∈ some keepingAll, o.Passive := by
    intro o member n call shape beta balance u
    cases member
    exact ⟨u ++ [beta.toList], rfl⟩
  have small : (1 : Int) ≤ 2 := by decide
  obtain ⟨same, part, -, counts⟩ := solve_reporting (m := m) (f := f) rfl small false true
    Observer.passive_of_none passive [] []
  obtain ⟨numbers, n, iterates, walked, steps⟩ := counts (Int.le_refl 1) _ result
  have length : iterates.length = 2 := by
    rw [walked.length]
    decide +kernel
  rw [length] at steps
  refine ⟨result, same, ?_, numbers, Nat.succ.inj steps, by decide +kernel⟩
  simp only [run, run']
  exact part

end Fitter

end BalanceFit
