import BalanceFit.Newton.Start
import BalanceFit.Proofs.Grid.System
import BalanceFit.Proofs.Newton.Agreement
import BalanceFit.Proofs.Newton.Round
import BalanceFit.Proofs.Scalar.Ranged
import BalanceFit.Settings

/-!
# Iterations return

Whatever a model and an observer write, NaN and infinities included, an iteration with accepted
parameters returns a result: each of its tests, the scaling and the linear solve come with an answer
for every system that they are put to. Only the reports can fail, and only for a verbosity that is
no level.

## Main definitions

* `Model.Responds`, `Observer.Responds` : a model and an observer that always return
* `Newton.Counts` : a count of evaluations that the user's code keeps

## Main statements

* `Newton.exists_newton` : iterations return
* `Newton.iterations_of_newton` : how many evaluations they make
* `Newton.fromGrid_returns` : from any list of numbers they return coefficients of its length
* `Newton.fromGrid_returns_incomparable` : parameters can be accepted although the verbosity is no
  level
-/

namespace BalanceFit

variable {α σ : Type} {n : Nat}

/-- At vectors of one size, and over a store, the model returns. What it writes and what it does to
the user's state is left open. -/
def Model.Responds [Scalar α] (model : Model (Act σ) α) (store : Store α) (n : Nat) : Prop :=
  ∀ (beta : Vec α n) (u : σ), ∃ (s : System α n) (u' : σ),
    (model.evaluate store (.ofVec beta) System.zero).run.run u = (.ok s, u')

/-- The observer returns. What it returns and what it does to the user's state is left open. -/
def Observer.Responds (o : Observer σ α) : Prop :=
  ∀ {n : Nat} (call : Nat) (shape : List Nat) (beta balance : Vec α n) (u : σ), ∃ r u',
    (o.observe call shape beta balance).run.run u = (.ok r, u')

namespace Newton

open Run

variable [Scalar α] {model : Model (Act σ) α} {store : Store α} {config : Config α}
  {observer : Option (Observer σ α)}

/-- A count that every evaluation at a vector of this size raises by one, and that the observer
leaves as it is. -/
structure Counts (model : Model (Act σ) α) (store : Store α) (observer : Option (Observer σ α))
    (n : Nat) (count : σ → Nat) : Prop where
  evaluation : ∀ (beta : Vec α n) (u u' : σ) (s : System α n),
    (model.evaluate store (.ofVec beta) System.zero).run.run u = (.ok s, u') →
      count u' = count u + 1
  observation : ∀ o ∈ observer, ∀ (call : Nat) (beta balance : Vec α n) (u u' : σ)
    (r : Vec α n × Vec α n),
    (o.observe call [n] beta balance).run.run u = (.ok r, u') → count u' = count u

/-- A visit is counted once. -/
theorem Counts.visited {count : σ → Nat} (counts : Counts model store observer n count)
    {b beta : Vec α n} {s t : System α n} {u : σ} {w w' : World σ α}
    (visited : Visited model store config observer b w beta s w' t u) :
    count w'.user = count w.user + 1 :=
  (visited.left count counts.observation).trans (counts.evaluation b _ _ _ visited.ran)

/-- A round is one evaluation, and is counted once. -/
theorem iterations_of_round {p : Progress α n} {turn : Turn α n} {w w' : World σ α}
    (returned : Returns (round model store config observer p) w turn w') :
    turn.result.iterations = p.evaluations + 1 ∧
      ∀ count, Counts model store observer n count → count w'.user = count w.user + 1 := by
  obtain ⟨-, beta, s, w₁, visited, printed, followed⟩ := exists_visit_of_round returned
  obtain ⟨t, u, visited⟩ := exists_visited visited
  refine ⟨by cases followed <;> rfl, fun count counts => ?_⟩
  rw [printed.user]
  exact counts.visited visited

/-- An iteration makes no more evaluations than it may, and as many as its result says. The
induction is on the evaluations that are left. -/
theorem iterations_of_iterate {remaining : Nat} {p : Progress α n} {r : FitResult (Vec α n) α}
    {w w' : World σ α}
    (returned : Returns (iterate model store config observer remaining p) w r w') :
    r.iterations ≤ p.evaluations + remaining ∧ ∀ count, Counts model store observer n count →
      count w'.user + p.evaluations = count w.user + r.iterations := by
  induction remaining generalizing p w with
  | zero =>
    obtain ⟨rfl, rfl⟩ := returns_pure_iff.1 returned
    exact ⟨Nat.le_refl p.evaluations, fun _ _ => rfl⟩
  | succ remaining ih =>
    rw [iterate_succ_eq_round, returns_bind_iff] at returned
    obtain ⟨turn, w₁, rounded, rest⟩ := returned
    obtain ⟨number, counted⟩ := iterations_of_round rounded
    -- The iteration ends after this evaluation, or it goes on.
    cases turn with
    | inr r' =>
      obtain ⟨rfl, rfl⟩ := returns_pure_iff.1 rest
      change r'.iterations = p.evaluations + 1 at number
      refine ⟨by omega, fun count counts => ?_⟩
      rw [counted count counts]
      omega
    | inl q =>
      change q.evaluations = p.evaluations + 1 at number
      obtain ⟨bounded, agree⟩ := ih rest
      refine ⟨by omega, fun count counts => ?_⟩
      have later := agree count counts
      rw [counted count counts] at later
      omega

/-- The same for the whole of an iteration. -/
theorem iterations_of_newton {start : Vec α n} {r : FitResult (Vec α n) α} {w w' : World σ α}
    (returned : Returns (newton model store config observer start) w r w') :
    r.iterations ≤ config.maxIter ∧ ∀ count, Counts model store observer n count →
      count w'.user = count w.user + r.iterations := by
  rw [newton] at returned
  split at returned
  · obtain ⟨bounded, agree⟩ := iterations_of_iterate returned
    exact ⟨(Nat.zero_add config.maxIter).subst bounded, agree⟩
  · obtain ⟨rfl, rfl⟩ := returns_pure_iff.1 returned
    exact ⟨Nat.zero_le _, fun _ _ => rfl⟩

section Returns

/-- A visit returns. -/
theorem exists_visit_of_responds (responds : model.Responds store n)
    (observers : ∀ o ∈ observer, o.Responds) (call : Nat) (b : Vec α n) (w : World σ α) :
    ∃ beta s w', Returns (visit model store config observer call b) w (beta, s) w' := by
  obtain ⟨t, u, ran⟩ := responds b w.user
  have evaluated : Returns (act (model.evaluate store (.ofVec b) System.zero)) w t
      { w with user := u } :=
    returns_act_iff.2 ⟨u, ran, rfl⟩
  cases observer with
  | none => exact ⟨_, _, _, evaluated.bind (returns_pure_iff.2 ⟨rfl, rfl⟩)⟩
  | some o =>
    let s := t.regularize config.epsilon b
    let noted : World σ α :=
      { w with user := u, visits := w.visits.push ⟨b.toList, s.balance.toList⟩ }
    obtain ⟨r, u', looked⟩ := observers o rfl call [n] b s.balance noted.user
    have observed : Returns (act (o.observe call [n] b s.balance)) noted r
        { noted with user := u' } :=
      returns_act_iff.2 ⟨u', looked, rfl⟩
    exact ⟨_, _, _, evaluated.bind (Returns.bind (returns_note_iff.2 rfl)
      (observed.bind (returns_pure_iff.2 ⟨rfl, rfl⟩)))⟩

/-- After a step an iteration returns if it does so from the next iterate on. -/
theorem exists_conclude_step {level : Int} (leveled : config.verbosity = .level level)
    {remaining : Nat} {p : Progress α n} {delta : Vec α n}
    (rest : ∀ w, ∃ r w',
      Returns (iterate model store config observer remaining (p.stepped delta)) w r w')
    (w : World σ α) :
    ∃ r w', Returns (conclude model store config observer remaining p (.step delta)) w r w' := by
  have printed := exists_printFrom 1 level (.step delta.absTotal) w
  rw [← leveled] at printed
  obtain ⟨w₁, printed⟩ := printed
  have next : ∃ r w', Returns (if Scalar.le delta.absTotal config.stepTol then
      return (p.stepped delta).result .converged
      else iterate model store config observer remaining (p.stepped delta)) w₁ r w' := by
    split
    · exact ⟨_, w₁, returns_pure_iff.2 ⟨rfl, rfl⟩⟩
    · exact rest w₁
  obtain ⟨r, w', returned⟩ := next
  exact ⟨r, w', printed.bind returned⟩

variable [Scalar.LawfulZero α] (accepted : config.accepted = true) {level : Int}
  (leveled : config.verbosity = .level level) (responds : model.Responds store n)
  (observers : ∀ o ∈ observer, o.Responds)

/-- An accepted system is assessed. -/
theorem exists_assess (accepted : config.accepted = true) (s : System α n) :
    ∃ verdict, assess config s = .ok verdict := by
  rcases assess_cases accepted s with ⟨outcome, -, assessed⟩ | ⟨delta, -, assessed, -⟩
  · exact ⟨_, assessed⟩
  · exact ⟨_, assessed⟩

include accepted leveled responds observers

/-- An iteration returns from wherever it stands. The induction is on the evaluations that are left.
-/
theorem exists_iterate (remaining : Nat) (p : Progress α n) (w : World σ α) :
    ∃ r w', Returns (iterate model store config observer remaining p) w r w' := by
  induction remaining generalizing p w with
  | zero => exact ⟨_, w, returns_pure_iff.2 ⟨rfl, rfl⟩⟩
  | succ remaining ih =>
    obtain ⟨beta, s, w₁, visited⟩ : ∃ beta s w₁,
        Returns (visit model store config observer (p.evaluations + 1) p.beta) w (beta, s) w₁ :=
      exists_visit_of_responds responds observers _ _ w
    obtain ⟨verdict, assessed⟩ := exists_assess accepted s
    obtain ⟨w₂, returns⟩ := exists_world_of_visit leveled visited assessed
    cases verdict with
    | stop outcome => exact ⟨_, w₂, returns _ _ (returns_pure_iff.2 ⟨rfl, rfl⟩)⟩
    | step delta =>
      obtain ⟨r, w', returned⟩ := exists_conclude_step leveled (ih _) w₂
      exact ⟨r, w', returns r w' returned⟩

omit leveled in
/-- An iteration returns from any starting coefficients, unless it comes to a report and the
verbosity is no level. -/
theorem exists_newton (start : Vec α n) (u : σ) :
    ∃ r, (Run.start u (newton model store config observer start)).1 =
      if start.isFinite then (config.verbosity.atLeast 1).map fun _ => r else .ok r := by
  split
  case isTrue finite =>
    have levels : ∃ r, ∀ level, config.verbosity = .level level →
        (Run.start u (newton model store config observer start)).1 = .ok r := by
      rcases leveled : config.verbosity with level | _
      · obtain ⟨r, w', returned⟩ := exists_iterate accepted leveled responds observers
          config.maxIter (.start config.history start) ⟨u, #[], #[]⟩
        refine ⟨r, fun _ _ => start_eq_ok_iff.2 ⟨w', ?_⟩⟩
        rw [newton, if_pos finite]
        exact returned
      · refine ⟨(Progress.start config.history start).result .exhausted, fun level other => ?_⟩
        cases other
    obtain ⟨r, returned⟩ := levels
    obtain ⟨beta, s, w', visited⟩ :=
      exists_visit_of_responds responds observers 1 start ⟨u, #[], #[]⟩
    exact ⟨r, start_newton_of_returns (Config.one_le_maxIter accepted) finite
      ⟨_, w', visited⟩ returned⟩
  case isFalse broken =>
    rw [newton, if_neg broken]
    exact ⟨_, rfl⟩

end Returns

/-- The iteration from a list of numbers is that from the vector of them. -/
theorem fromGrid_ofList (l : List α) :
    fromGrid model store config observer (.ofList l) =
      (·.map .ofVec) <$> newton model store config observer (.ofList l) := by
  cases finite : l.all Scalar.isFinite with
  | true => simp only [fromGrid, Grid.ofList, finite, Bool.not_true, Bool.false_eq_true, if_false]
  | false =>
    have broken : ¬ (Vec.ofList l).isFinite = true := by
      rw [Vec.isFinite_ofList, finite]
      exact Bool.false_ne_true
    have same : Grid.ofVec (Vec.ofList l) = .ofList l := by
      rw [Grid.ofVec, Vec.toList_ofList, Grid.ofList]
    rw [newton, if_neg broken, map_pure, Progress.result, Progress.start, FitResult.map, same]
    simp only [fromGrid, Grid.ofList, finite, Bool.not_false, if_true]
    cases config.history <;> simp [same, Grid.ofList]

/-- **Iterations return.** With accepted parameters, and a model and an observer that always return,
an iteration from any list of numbers returns a result for every verbosity that is a level. If it is
no level, the first report fails; without finite numbers there is no report.

A result has as many coefficients as there were numbers. The iteration made at most as many
evaluations as allowed, and exactly those that the result counts. The ridge fits every system of
this size, and every system is assessed. -/
theorem fromGrid_returns [Scalar.LawfulZero α] (accepted : config.accepted = true) {l : List α}
    (responds : model.Responds store l.length) (observers : ∀ o ∈ observer, o.Responds) (u : σ) :
    let run := Run.start u (fromGrid model store config observer (.ofList l))
    (∃ r, run.1 = if l.all Scalar.isFinite then (config.verbosity.atLeast 1).map fun _ => r
      else .ok r) ∧
    (∀ r, run.1 = .ok r → r.beta.shape = [l.length] ∧ r.beta.entries.length = l.length ∧
      r.iterations ≤ config.maxIter ∧ ∀ count, Counts model store observer l.length count →
        count run.2.user = count u + r.iterations) ∧
    ∀ (b : Vec α l.length) (s : System α l.length),
      Grid.regularize (.ok config.epsilon) (.ofVec b) (.ofVec s.balance) (.ofMat s.jacobian) =
          ⟨.ofVec (s.regularize config.epsilon b).balance,
            .ofMat (s.regularize config.epsilon b).jacobian, none⟩ ∧
        ∃ verdict, assess config s = .ok verdict := by
  intro run
  refine ⟨?_, fun r returned => ?_,
    fun b s => ⟨Grid.regularize_eq config.epsilon b s, exists_assess accepted s⟩⟩
  · obtain ⟨r, returned⟩ := exists_newton accepted responds observers (.ofList l) u
    refine ⟨r.map .ofVec, ?_⟩
    simp only [run, fromGrid_ofList, start_map, returned, Vec.isFinite_ofList]
    split
    · cases config.verbosity.atLeast 1 <;> rfl
    · rfl
  · have returned : Returns (fromGrid model store config observer (.ofList l)) _ r run.2 :=
      Prod.ext returned rfl
    rw [fromGrid_ofList] at returned
    obtain ⟨r, iterated, rfl⟩ := returns_map_iff.1 returned
    obtain ⟨bounded, counted⟩ := iterations_of_newton iterated
    exact ⟨rfl, r.beta.length_toList, bounded, counted⟩

section Erratic

/-- A model that counts its evaluations, and writes NaN from the second one on. -/
def erraticModel : Model (Act Nat) Ranged where
  name := "ErraticModel"
  dim? := none
  link? := none
  evaluate? := some fun n _ _ _ => do
    let calls ← get
    set (calls + 1)
    return if calls = 0 then ⟨.replicate n 1, Mat.ofFn fun i j => if i = j then 1 else 0⟩
      else ⟨.replicate n .nan, .replicate n (.replicate n .nan)⟩

/-- An observer that makes the coefficients infinite. -/
def inflating : Observer Nat Ranged where
  observe _ _ _ balance := return (.replicate _ (.infinity false), balance)

theorem erraticModel_responds (n : Nat) : erraticModel.Responds (.empty none) n :=
  fun _ u => ⟨_, u + 1, rfl⟩

/-- With both of them an iteration returns, and tells how often the model was evaluated. -/
theorem fromGrid_returns_erratic :
    let config : Config Ranged := ⟨0, 0, 0, 0, 5, .level 2, true⟩
    let run := Run.start 0 (fromGrid erraticModel (.empty none) config (some inflating)
      (.ofList [1, 0]))
    ∃ r, run.1 = .ok r ∧ r.beta.shape = [2] ∧ r.iterations ≤ 5 ∧ run.2.user = r.iterations := by
  intro config
  have accepted : config.accepted = true := by decide +kernel
  have observers : ∀ o ∈ some inflating, o.Responds := by
    intro o member n call shape beta balance u
    cases member
    exact ⟨_, u, rfl⟩
  have counts : Counts erraticModel (.empty none) (some inflating) 2 id := by
    constructor
    · intro beta u u' s ran
      cases ran
      rfl
    · intro o member call beta balance u u' r ran
      cases member
      cases ran
      rfl
  obtain ⟨⟨r, returned⟩, entries, -⟩ := fromGrid_returns accepted (l := [1, 0])
    (erraticModel_responds 2) observers 0
  have finite : ([1, 0] : List Ranged).all Scalar.isFinite = true := by decide +kernel
  rw [finite] at returned
  obtain ⟨shape, -, bounded, counted⟩ := entries r returned
  have number := counted id counts
  rw [id, id, Nat.zero_add] at number
  exact ⟨r, returned, shape, bounded, number⟩

/-- The check of settings does not look at the verbosity, which need not be a level. If it is none,
an iteration fails at its first report. -/
theorem fromGrid_returns_incomparable :
    (∀ s : Settings, ({ s with verbose := .leaf .nothing } : Settings).check = s.check) ∧
      Settings.verbosity (.leaf .nothing) = .incomparable ∧
      (⟨0, 0, 0, 0, 5, .incomparable, true⟩ : Config Ranged).accepted = true ∧
      erraticModel.Responds (.empty none) 2 ∧
      (Run.start 0 (fromGrid erraticModel (.empty none) ⟨0, 0, 0, 0, 5, .incomparable, true⟩ none
        (.ofList [1, 0]))).1 = .error .notANumber :=
  ⟨fun _ => rfl, rfl, by decide +kernel, erraticModel_responds 2, by decide +kernel⟩

end Erratic

end Newton

end BalanceFit
