import BalanceFit.Newton.Start
import BalanceFit.Proofs.Run

/-!
# What a visit of an iterate returns

At every iterate the model is evaluated and an observer may look. What the iteration goes on with is
the regularized system of the model, except for what the observer exchanges: the coefficients and
the balance, but never the Jacobian.

## Main definitions

* `Model.Computes` : a model whose evaluations over a store are those of a function
* `Observer.LooksOnly` : an observer that exchanges nothing
* `Observer.Passive` : an observer that, moreover, never fails
* `Newton.Visited` : what a visit has done when it returns

## Main statements

* `Newton.exists_visited` : this is known of every visit that returns
* `Newton.visit_eq_of_looksOnly` : if the observer only looks, the iteration goes on with what the
  model wrote
* `Newton.exists_visit`, `Newton.exists_iterate_succ` : with a model that computes and a passive
  observer, a visit returns, and a round gets as far as the assessment
* `Newton.exists_iterate_of_stop` : if that is a stop, the iteration ends there
* `Newton.start_newton_of_returns` : what an iteration returns for the verbosities that are levels,
  it gives for all of them, with a failure for the others
* `Newton.newton_eq_of_evaluate`, `Newton.fromGrid_eq_of_evaluate` : of model and store, an
  iteration sees the evaluations alone
-/

namespace BalanceFit

variable {α σ : Type} {n : Nat}

/-- Over a store, and at vectors of one size, the model computes a function: it writes the value
into buffers of zeros, does nothing else, and never fails. -/
def Model.Computes [Scalar α] (model : Model (Act σ) α) (store : Store α)
    (f : Vec α n → System α n) : Prop :=
  ∀ beta, model.evaluate store (.ofVec beta) System.zero = pure (f beta)

namespace Observer

/-- If the observer returns, it is with the coefficients and the balance that it was shown. -/
def LooksOnly (o : Observer σ α) : Prop :=
  ∀ {n : Nat} (call : Nat) (shape : List Nat) (beta balance : Vec α n) (u u' : σ)
    (r : Vec α n × Vec α n),
    (o.observe call shape beta balance).run.run u = (.ok r, u') → r = (beta, balance)

/-- The observer returns the coefficients and the balance that it was shown. Only its own state may
change. -/
def Passive (o : Observer σ α) : Prop :=
  ∀ {n : Nat} (call : Nat) (shape : List Nat) (beta balance : Vec α n) (u : σ),
    ∃ u', (o.observe call shape beta balance).run.run u = (.ok (beta, balance), u')

/-- A quantity that is read off the user's state is the same after every call that returns. -/
def Leaves {γ : Type} (o : Observer σ α) (n : Nat) (g : σ → γ) : Prop :=
  ∀ (call : Nat) (beta balance : Vec α n) (u u' : σ) (r : Vec α n × Vec α n),
    (o.observe call [n] beta balance).run.run u = (.ok r, u') → g u' = g u

theorem passive_of_none : ∀ o ∈ (none : Option (Observer σ α)), o.Passive :=
  fun o member => absurd member (Option.not_mem_none o)

theorem looksOnly_of_none : ∀ o ∈ (none : Option (Observer σ α)), o.LooksOnly :=
  fun o member => absurd member (Option.not_mem_none o)

theorem Passive.looksOnly {o : Observer σ α} (passive : o.Passive) : o.LooksOnly := by
  intro n call shape beta balance u u' r returned
  obtain ⟨u₁, same⟩ := passive call shape beta balance u
  rw [same] at returned
  cases returned
  rfl

end Observer

namespace Newton

open Run

variable [Scalar α] {model : Model (Act σ) α} {store : Store α} {config : Config α}
  {observer : Option (Observer σ α)} {call : Nat} {b beta : Vec α n} {s : System α n}
  {w w' : World σ α}

/-- What is known of a visit with any observer, where the model has written `t` and left the user's
state `u`. -/
structure Visited (model : Model (Act σ) α) (store : Store α) (config : Config α)
    (observer : Option (Observer σ α)) (b : Vec α n) (w : World σ α) (beta : Vec α n)
    (s : System α n) (w' : World σ α) (t : System α n) (u : σ) : Prop where
  /-- The model was evaluated at the iterate. -/
  ran : (model.evaluate store (.ofVec b) System.zero).run.run w.user = (.ok t, u)
  /-- The Jacobian is the one that it wrote, with the ridge. -/
  jacobian : s.jacobian = (t.regularize config.epsilon b).jacobian
  /-- An observer that only looks leaves the coefficients and the balance, too, as they were. -/
  looked : (∀ o ∈ observer, o.LooksOnly) → beta = b ∧ s = t.regularize config.epsilon b
  /-- An observer was shown the iterate and the balance with the ridge; -/
  call : observer.isSome →
    w'.visits = w.visits.push ⟨b.toList, (t.regularize config.epsilon b).balance.toList⟩
  /-- without one there was no call. -/
  noCall : observer = none → w'.visits = w.visits
  /-- What the observer leaves as it is in the user's state is what the model has left. -/
  left : ∀ {γ : Type} (g : σ → γ), (∀ o ∈ observer, o.Leaves n g) → g w'.user = g u

/-- A visit that returns has evaluated the model and shown the outcome. -/
theorem exists_visited
    (visited : Returns (visit model store config observer call b) w (beta, s) w') :
    ∃ t u, Visited model store config observer b w beta s w' t u := by
  rw [visit, returns_bind_iff] at visited
  obtain ⟨t, w₁, evaluated, visited⟩ := visited
  obtain ⟨u, ran, rfl⟩ := returns_act_iff.1 evaluated
  refine ⟨t, u, ?_⟩
  cases observer with
  | none =>
    obtain ⟨same, rfl⟩ := returns_pure_iff.1 visited
    cases same
    exact ⟨ran, rfl, fun _ => ⟨rfl, rfl⟩, fun shown => absurd shown Bool.false_ne_true,
      fun _ => rfl, fun _ _ => rfl⟩
  | some o =>
    -- The observer is shown the regularized balance, but never the Jacobian.
    obtain ⟨_, w₂, noted, visited⟩ := returns_bind_iff.1 visited
    obtain rfl := returns_note_iff.1 noted
    obtain ⟨r, w₃, observed, visited⟩ := returns_bind_iff.1 visited
    obtain ⟨u', looked, rfl⟩ := returns_act_iff.1 observed
    obtain ⟨same, rfl⟩ := returns_pure_iff.1 visited
    cases same
    refine ⟨ran, rfl, fun looks => ?_, fun _ => rfl,
      fun missing => absurd missing (Option.some_ne_none o),
      fun g leaves => leaves o rfl _ _ _ _ _ _ looked⟩
    rw [looks o rfl _ _ _ _ _ _ _ looked]
    exact ⟨rfl, rfl⟩

/-- If the observer only looks, a visit returns the iterate and the regularized system there. -/
theorem visit_eq_of_looksOnly (looks : ∀ o ∈ observer, o.LooksOnly)
    (visited : Returns (visit model store config observer call b) w (beta, s) w') :
    beta = b ∧ ∃ t u u',
      (model.evaluate store (.ofVec b) System.zero).run.run u = (.ok t, u') ∧
        s = t.regularize config.epsilon b := by
  obtain ⟨t, u, visited⟩ := exists_visited visited
  obtain ⟨same, system⟩ := visited.looked looks
  exact ⟨same, t, w.user, u, visited.ran, system⟩

/-- What an iteration does once a system is assessed. -/
def conclude (model : Model (Act σ) α) (store : Store α) (config : Config α)
    (observer : Option (Observer σ α)) (remaining : Nat) (p : Progress α n) :
    Verdict α n → Run σ α (FitResult (Vec α n) α)
  | .stop outcome => return p.result outcome
  | .step delta => do
    Run.printFrom 1 config.verbosity (.step delta.absTotal)
    if Scalar.le delta.absTotal config.stepTol then return (p.stepped delta).result .converged
    else iterate model store config observer remaining (p.stepped delta)

/-- One round of the iteration: a visit, three reports, the assessment, and what follows from it. -/
theorem iterate_succ (model : Model (Act σ) α) (store : Store α) (config : Config α)
    (observer : Option (Observer σ α)) (remaining : Nat) (p : Progress α n) :
    iterate model store config observer (remaining + 1) p = (do
      let (beta, s) ← visit model store config observer (p.evaluations + 1) p.beta
      let p := p.evaluated beta s.balance.absTotal
      Run.printFrom 1 config.verbosity (.iteration p.evaluations p.absBalance)
      Run.printFrom 2 config.verbosity (.coefficients beta.toList)
      Run.printFrom 2 config.verbosity (.balance s.balance.toList)
      let verdict ← Run.ofExcept (assess config s)
      conclude model store config observer remaining p verdict) :=
  rfl

/-- At a level of verbosity, a round that has visited the iterate and assessed the system there
returns what follows from the verdict, in some world. -/
theorem exists_world_of_visit {level : Int} (leveled : config.verbosity = .level level)
    {remaining : Nat} {p : Progress α n} {verdict : Verdict α n}
    (visited :
      Returns (visit model store config observer (p.evaluations + 1) p.beta) w (beta, s) w')
    (assessed : assess config s = .ok verdict) :
    ∃ w₁, ∀ r w₂, Returns (conclude model store config observer remaining
        (p.evaluated beta s.balance.absTotal) verdict) w₁ r w₂ →
      Returns (iterate model store config observer (remaining + 1) p) w r w₂ := by
  rw [iterate_succ, leveled]
  obtain ⟨w₁, first⟩ := exists_printFrom 1 level (.iteration _ _) w'
  obtain ⟨w₂, second⟩ := exists_printFrom 2 level (.coefficients beta.toList) w₁
  obtain ⟨w₃, third⟩ := exists_printFrom 2 level (.balance s.balance.toList) w₂
  exact ⟨w₃, fun r w₄ returned => visited.bind (first.bind (second.bind (third.bind
    ((returns_ofExcept_iff.2 ⟨assessed, rfl⟩).bind returned))))⟩

/-- With a model that computes and a passive observer, a visit returns. -/
theorem exists_visit {f : Vec α n → System α n} (computes : model.Computes store f)
    (passive : ∀ o ∈ observer, o.Passive) (call : Nat) (b : Vec α n) (w : World σ α) :
    ∃ w', Returns (visit model store config observer call b) w
      (b, (f b).regularize config.epsilon b) w' := by
  have evaluated : Returns (act (model.evaluate store (.ofVec b) System.zero)) w (f b) w := by
    rw [computes b]
    exact returns_act_iff.2 ⟨w.user, rfl, rfl⟩
  cases observer with
  | none => exact ⟨w, evaluated.bind (returns_pure_iff.2 ⟨rfl, rfl⟩)⟩
  | some o =>
    let s := (f b).regularize config.epsilon b
    let noted : World σ α := { w with visits := w.visits.push ⟨b.toList, s.balance.toList⟩ }
    obtain ⟨u, observed⟩ := passive o rfl call [n] b s.balance noted.user
    refine ⟨{ noted with user := u }, evaluated.bind ?_⟩
    refine Returns.bind (returns_note_iff.2 rfl) ?_
    exact (returns_act_iff.2 ⟨u, observed, rfl⟩).bind (returns_pure_iff.2 ⟨rfl, rfl⟩)

/-- A round of the iteration gets as far as the assessment, and returns what follows from it. -/
theorem exists_iterate_succ {f : Vec α n → System α n} {level : Int}
    (leveled : config.verbosity = .level level) (computes : model.Computes store f)
    (passive : ∀ o ∈ observer, o.Passive) (remaining : Nat)
    (p : Progress α n) {verdict : Verdict α n} {r : FitResult (Vec α n) α}
    (assessed : assess config ((f p.beta).regularize config.epsilon p.beta) = .ok verdict)
    (rest : ∀ w, ∃ w', Returns (conclude model store config observer remaining
      (p.evaluated p.beta ((f p.beta).regularize config.epsilon p.beta).balance.absTotal) verdict)
      w r w')
    (w : World σ α) :
    ∃ w', Returns (iterate model store config observer (remaining + 1) p) w r w' := by
  obtain ⟨w₁, visited⟩ := exists_visit computes passive (p.evaluations + 1) p.beta w
  obtain ⟨w₂, returns⟩ := exists_world_of_visit leveled visited assessed
  obtain ⟨w', returned⟩ := rest w₂
  exact ⟨w', returns r w' returned⟩

/-- A round whose assessment is a stop is the last one. -/
theorem exists_iterate_of_stop {f : Vec α n → System α n} {level : Int}
    (leveled : config.verbosity = .level level) (computes : model.Computes store f)
    (passive : ∀ o ∈ observer, o.Passive) (remaining : Nat) (p : Progress α n) {outcome : Outcome}
    (assessed : assess config ((f p.beta).regularize config.epsilon p.beta) = .ok (.stop outcome))
    (w : World σ α) :
    ∃ w', Returns (iterate model store config observer (remaining + 1) p) w
      ((p.evaluated p.beta
        ((f p.beta).regularize config.epsilon p.beta).balance.absTotal).result outcome) w' :=
  exists_iterate_succ leveled computes passive remaining p assessed
    (fun w => ⟨w, returns_pure_iff.2 ⟨rfl, rfl⟩⟩) w

/-- A verbosity that is no level ends the iteration at its first report. -/
theorem iterate_of_incomparable (incomparable : config.verbosity = .incomparable)
    {remaining : Nat} {p : Progress α n}
    (visited :
      Returns (visit model store config observer (p.evaluations + 1) p.beta) w (beta, s) w') :
    ((iterate model store config observer (remaining + 1) p).run.run w).1 =
      .error .notANumber := by
  rw [iterate_succ, incomparable, run_bind, visited]
  rfl

/-- From finite starting coefficients an iteration makes at least one report. So what it returns for
the verbosities that are levels is what it comes to for all of them, as soon as the first visit
returns. -/
theorem start_newton_of_returns {start : Vec α n} {u : σ} {r : FitResult (Vec α n) α}
    (positive : 1 ≤ config.maxIter) (finite : start.isFinite = true)
    (visited :
      ∃ t w', Returns (visit model store config observer 1 start) ⟨u, #[], #[]⟩ t w')
    (returned : ∀ level, config.verbosity = .level level →
      (Run.start u (newton model store config observer start)).1 = .ok r) :
    (Run.start u (newton model store config observer start)).1 =
      (config.verbosity.atLeast 1).map fun _ => r := by
  rcases leveled : config.verbosity with level | _
  · exact returned level leveled
  · obtain ⟨m, budget⟩ := Nat.exists_eq_add_of_le' positive
    obtain ⟨⟨beta, s⟩, w', visited⟩ := visited
    rw [Run.start, newton, if_pos finite, budget]
    exact iterate_of_incomparable leveled visited

/-- A balance that is not finite stops the iteration. -/
theorem assess_of_nonFinite (broken : Scalar.isFinite s.balance.absTotal = false) :
    assess config s = .ok (.stop (.diverged .nonFiniteBalance)) := by
  rw [assess, broken]
  rfl

/-- Of the model and the store an iteration sees the evaluations alone. -/
theorem newton_eq_of_evaluate {model' : Model (Act σ) α} {store' : Store α}
    (same : ∀ b : Vec α n, model.evaluate store (.ofVec b) System.zero =
      model'.evaluate store' (.ofVec b) (System.zero : System α n)) (start : Vec α n) :
    newton model store config observer start = newton model' store' config observer start := by
  have visits (call : Nat) (b : Vec α n) :
      visit model store config observer call b = visit model' store' config observer call b := by
    rw [visit, visit, same b]
  have iterations (remaining : Nat) (p : Progress α n) :
      iterate model store config observer remaining p =
        iterate model' store' config observer remaining p := by
    induction remaining generalizing p with
    | zero => rfl
    | succ remaining ih =>
      rw [iterate, iterate, visits]
      simp only [ih]
  rw [newton, newton, iterations]

omit [Scalar α] in
/-- To a model that is shown another shape, coefficients have that shape. -/
theorem evaluate_shownAs (shape : List Nat) (beta : Grid α) (buffers : System α n) :
    (shownAs shape model).evaluate store beta buffers =
      model.evaluate store ⟨shape, beta.entries⟩ buffers := by
  rw [shownAs, Model.evaluate, Model.evaluate]
  cases model.evaluate? <;> rfl

/-- The same holds of the iterations from arrays of any shape. -/
theorem fromGrid_eq_of_evaluate {model' : Model (Act σ) α} {store' : Store α}
    (same : ∀ {n : Nat} (b : Grid α), model.evaluate store b System.zero =
      model'.evaluate store' b (System.zero : System α n)) (start : Grid α) :
    fromGrid model store config observer start = fromGrid model' store' config observer start := by
  have vectors {n : Nat} (v : Vec α n) :
      newton model store config observer v = newton model' store' config observer v :=
    newton_eq_of_evaluate (fun b => same (.ofVec b)) v
  have values (b : α) :
      fromValue model store config observer b = fromValue model' store' config observer b := by
    simp only [fromValue, visit, evaluate_shownAs, same]
  rw [fromGrid, fromGrid]
  simp only [vectors, values, same]

/-- If two models compute one function their iterations are equal. -/
theorem newton_congr {model' : Model (Act σ) α} {store' : Store α}
    {f : Vec α n → System α n} (computes : model.Computes store f)
    (computes' : model'.Computes store' f) (start : Vec α n) :
    newton model store config observer start = newton model' store' config observer start :=
  newton_eq_of_evaluate (fun b => (computes b).trans (computes' b).symm) start

end Newton

end BalanceFit
