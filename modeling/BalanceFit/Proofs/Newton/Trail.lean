import BalanceFit.Proofs.Newton.Round

/-!
# The trail of an iteration

An iteration from starting coefficients stands, after each step, at new coefficients, and the user's
code has left its state as it is then. Where it stands is defined by the steps that it took; an
iteration that returns a result has come to stand somewhere and was ended there. So what every step
preserves holds wherever an iteration stands, and at its end.

## Main definitions

* `Newton.Stands` : where an iteration can come to stand, and in which state of the user
* `Newton.Evaluated` : an evaluation on the way, its number, and the system that it gave
* `Newton.Concluded` : the ways in which an iteration ends at the place where it stands
* `Newton.Shown` : visits that are those of the first evaluations

## Main statements

* `Newton.stands_of_round` : a round leads from one place to the next, or to an end
* `Newton.concluded_of_iterate`, `Newton.concluded_of_newton` : these are all ways
* `Newton.Evaluated.eq_start_or_step` : an iterate that is evaluated is the first one, or one step
  from the iterate that was evaluated before it
* `Newton.shown_of_newton` : an observer that only looks is shown the evaluations, one by one
* `Newton.evaluated_start`, `Newton.Evaluated.next` : with a model that computes and a passive
  observer, these iterates are evaluated
-/

namespace BalanceFit.Newton

open Run

variable {α σ : Type} [Scalar α] {n : Nat} {model : Model (Act σ) α} {store : Store α}
  {config : Config α} {observer : Option (Observer σ α)} {start : Vec α n} {u₀ : σ}

/-- The iteration from `start`, in a user's state `u₀`, comes to stand here if it is allowed as many
evaluations. -/
inductive Stands (model : Model (Act σ) α) (store : Store α) (config : Config α)
    (observer : Option (Observer σ α)) (start : Vec α n) (u₀ : σ) : Progress α n → σ → Prop
  /-- It has not taken a step. -/
  | start : Stands model store config observer start u₀ (.start config.history start) u₀
  /-- It has taken a step from where it stood before. -/
  | stepped {p : Progress α n} {w w' : World σ α} {beta delta : Vec α n} {s : System α n}
    (before : Stands model store config observer start u₀ p w.user)
    (visited :
      Returns (visit model store config observer (p.evaluations + 1) p.beta) w (beta, s) w')
    (assessed : assess config s = .ok (.step delta))
    (long : ¬ Scalar.le delta.absTotal config.stepTol = true) :
    Stands model store config observer start u₀
      ((p.evaluated beta s.balance.absTotal).stepped delta) w'.user

/-- The evaluation of this number is the one at `b`, and gives the system `s` with the ridge. -/
def Evaluated (model : Model (Act σ) α) (store : Store α) (config : Config α)
    (observer : Option (Observer σ α)) (start : Vec α n) (u₀ : σ) (number : Nat) (b : Vec α n)
    (s : System α n) : Prop :=
  ∃ (p : Progress α n) (w w' : World σ α),
    Stands model store config observer start u₀ p w.user ∧ p.beta = b ∧
      p.evaluations + 1 = number ∧
        Returns (visit model store config observer number b) w (b, s) w'

/-- The ways to end with a result at the place where an iteration stands. -/
inductive Concluded (model : Model (Act σ) α) (store : Store α) (config : Config α)
    (observer : Option (Observer σ α)) (start : Vec α n) (u₀ : σ) (r : FitResult (Vec α n) α) : Prop
  /-- The assessment of the system there is a stop. -/
  | stopped {p : Progress α n} {w w' : World σ α} {beta : Vec α n} {s : System α n}
    {outcome : Outcome} (here : Stands model store config observer start u₀ p w.user)
    (visited :
      Returns (visit model store config observer (p.evaluations + 1) p.beta) w (beta, s) w')
    (assessed : assess config s = .ok (.stop outcome))
    (result : r = (p.evaluated beta s.balance.absTotal).result outcome)
  /-- The step from there is short. -/
  | shortStep {p : Progress α n} {w w' : World σ α} {beta delta : Vec α n} {s : System α n}
    (here : Stands model store config observer start u₀ p w.user)
    (visited :
      Returns (visit model store config observer (p.evaluations + 1) p.beta) w (beta, s) w')
    (assessed : assess config s = .ok (.step delta))
    (short : Scalar.le delta.absTotal config.stepTol = true)
    (result : r = ((p.evaluated beta s.balance.absTotal).stepped delta).result .converged)
  /-- No more evaluations are allowed. -/
  | exhausted {p : Progress α n} {u : σ} (here : Stands model store config observer start u₀ p u)
    (result : r = p.result .exhausted)

/-- A round from a place where the iteration stands leads to another one, or concludes it. -/
theorem stands_of_round {p : Progress α n} {w w' : World σ α} {turn : Turn α n}
    (here : Stands model store config observer start u₀ p w.user)
    (returned : Returns (round model store config observer p) w turn w') :
    Sum.elim (fun q => Stands model store config observer start u₀ q w'.user)
      (Concluded model store config observer start u₀) turn := by
  obtain ⟨-, beta, s, w₁, visited, printed, followed⟩ := exists_visit_of_round returned
  cases followed with
  | stopped assessed => exact .stopped here visited assessed rfl
  | shortStep assessed short => exact .shortStep here visited assessed short rfl
  | stepped assessed long =>
    rw [Sum.elim_inl, printed.user]
    exact .stepped here visited assessed long

/-- An iteration that returns from a place where it stands is concluded. -/
theorem concluded_of_iterate {remaining : Nat} {p : Progress α n} {w w' : World σ α}
    {r : FitResult (Vec α n) α} (here : Stands model store config observer start u₀ p w.user)
    (returned : Returns (iterate model store config observer remaining p) w r w') :
    Concluded model store config observer start u₀ r := by
  obtain ⟨turn, rounded, rfl⟩ := returns_iterate_iff.1 returned
  have ended := rounds_induction
    (I := fun q w => Stands model store config observer start u₀ q w.user)
    (F := fun r _ => Concluded model store config observer start u₀ r) stands_of_round here rounded
  cases turn with
  | inl q => exact .exhausted ended rfl
  | inr r => exact ended

/-- An iteration that returns from finite starting coefficients is concluded. -/
theorem concluded_of_newton {w w' : World σ α} {r : FitResult (Vec α n) α}
    (finite : start.isFinite = true)
    (returned : Returns (newton model store config observer start) w r w') :
    Concluded model store config observer start w.user r := by
  rw [newton, if_pos finite] at returned
  exact concluded_of_iterate .start returned

/-- If the observer only looks, then an iterate that is evaluated is the first one, or it is one
step from an iterate that was evaluated before it. -/
theorem Evaluated.eq_start_or_step (looks : ∀ o ∈ observer, o.LooksOnly) {number : Nat}
    {b : Vec α n} {s : System α n}
    (evaluated : Evaluated model store config observer start u₀ number b s) :
    number = 1 ∧ b = start ∨ ∃ b' s' delta,
      Evaluated model store config observer start u₀ (number - 1) b' s' ∧
        assess config s' = .ok (.step delta) ∧ b = Vec.zipWith (· - ·) b' delta := by
  obtain ⟨p, w, w', stands, rfl, rfl, -⟩ := evaluated
  generalize w.user = u at stands
  cases stands with
  | start => exact .inl ⟨rfl, rfl⟩
  | @stepped p w₁ w₂ beta delta s' before visited assessed _ =>
    obtain ⟨rfl, -⟩ := visit_eq_of_looksOnly looks visited
    exact .inr ⟨p.beta, s', delta, ⟨p, _, _, before, rfl, rfl, visited⟩, assessed, rfl⟩

theorem Evaluated.one_le {number : Nat} {b : Vec α n} {s : System α n}
    (evaluated : Evaluated model store config observer start u₀ number b s) : 1 ≤ number := by
  obtain ⟨p, w, w', -, -, rfl, -⟩ := evaluated
  exact Nat.le_add_left 1 p.evaluations

/-- An observer was shown as many visits as the number says, and they are those of the first
evaluations: the iterate, and the balance with the ridge. -/
structure Shown (model : Model (Act σ) α) (store : Store α) (config : Config α)
    (observer : Option (Observer σ α)) (start : Vec α n) (u₀ : σ) (number : Nat)
    (visits : Array (Visit α)) : Prop where
  size : visits.size = number
  evaluated : ∀ i < number, ∃ (b : Vec α n) (s : System α n),
    Evaluated model store config observer start u₀ (i + 1) b s ∧
      visits[i]? = some ⟨b.toList, s.balance.toList⟩

/-- The next evaluation is shown behind the others. -/
theorem Shown.push {number : Nat} {visits : Array (Visit α)} {b : Vec α n} {s : System α n}
    (shown : Shown model store config observer start u₀ number visits)
    (evaluated : Evaluated model store config observer start u₀ (number + 1) b s) :
    Shown model store config observer start u₀ (number + 1)
      (visits.push ⟨b.toList, s.balance.toList⟩) where
  size := by rw [Array.size_push, shown.size]
  evaluated i bound := by
    simp only [Array.getElem?_push, shown.size]
    rcases Nat.lt_succ_iff_lt_or_eq.1 bound with earlier | rfl
    · rw [if_neg (Nat.ne_of_lt earlier)]
      exact shown.evaluated i earlier
    · rw [if_pos rfl]
      exact ⟨b, s, evaluated, rfl⟩

section Observed

variable (observed : observer.isSome) (looks : ∀ o ∈ observer, o.LooksOnly)

include observed looks

/-- A round from a place where the iteration stands shows one evaluation more. -/
theorem shown_of_round {p : Progress α n} {w w' : World σ α} {turn : Turn α n}
    (here : Stands model store config observer start u₀ p w.user ∧
      Shown model store config observer start u₀ p.evaluations w.visits)
    (returned : Returns (round model store config observer p) w turn w') :
    Sum.elim (fun q => Stands model store config observer start u₀ q w'.user ∧
        Shown model store config observer start u₀ q.evaluations w'.visits)
      (fun r => Shown model store config observer start u₀ r.iterations w'.visits) turn := by
  obtain ⟨stands, shown⟩ := here
  have next := stands_of_round stands returned
  obtain ⟨-, beta, s, w₁, visited, printed, followed⟩ := exists_visit_of_round returned
  obtain ⟨t, u, parts⟩ := exists_visited visited
  obtain ⟨rfl, rfl⟩ := parts.looked looks
  have later := shown.push ⟨p, w, w₁, stands, rfl, rfl, visited⟩
  rw [← parts.call observed, ← printed.visits] at later
  cases followed with
  | stopped => exact later
  | shortStep => exact later
  | stepped => exact ⟨next, later⟩

/-- **An observer that only looks is shown the evaluations, one by one**: an iteration that returns
has shown as many visits as it made evaluations, and each of them is the evaluation of its number.
-/
theorem shown_of_newton {w : World σ α} {r : FitResult (Vec α n) α}
    (returned : Run.start u₀ (newton model store config observer start) = (.ok r, w)) :
    Shown model store config observer start u₀ r.iterations w.visits := by
  have nothing : Shown model store config observer start u₀ 0 #[] :=
    ⟨rfl, fun i bound => absurd bound (Nat.not_lt_zero i)⟩
  have returned : Returns (newton model store config observer start) ⟨u₀, #[], #[]⟩ r w := returned
  rw [newton] at returned
  split at returned
  · obtain ⟨turn, rounded, rfl⟩ := returns_iterate_iff.1 returned
    have ended := rounds_induction
      (I := fun p w => Stands model store config observer start u₀ p w.user ∧
        Shown model store config observer start u₀ p.evaluations w.visits)
      (F := fun r w => Shown model store config observer start u₀ r.iterations w.visits)
      (shown_of_round observed looks) ⟨.start, nothing⟩ rounded
    cases turn with
    | inl q => exact ended.2
    | inr r => exact ended
  · obtain ⟨rfl, rfl⟩ := returns_pure_iff.1 returned
    exact nothing

end Observed

section Computes

variable {f : Vec α n → System α n} (computes : model.Computes store f)
  (passive : ∀ o ∈ observer, o.Passive)

include computes passive

/-- With a model that computes and a passive observer, the start is evaluated; -/
theorem evaluated_start :
    Evaluated model store config observer start u₀ 1 start
      ((f start).regularize config.epsilon start) := by
  obtain ⟨w', visited⟩ := exists_visit computes passive 1 start ⟨u₀, #[], #[]⟩
  exact ⟨_, _, w', .start, rfl, rfl, visited⟩

/-- and so is the next iterate after a step that is long enough. -/
theorem Evaluated.next {number : Nat} {b delta : Vec α n} {s : System α n}
    (evaluated : Evaluated model store config observer start u₀ number b s)
    (assessed : assess config s = .ok (.step delta))
    (long : ¬ Scalar.le delta.absTotal config.stepTol = true) :
    Evaluated model store config observer start u₀ (number + 1) (Vec.zipWith (· - ·) b delta)
      ((f (Vec.zipWith (· - ·) b delta)).regularize config.epsilon
        (Vec.zipWith (· - ·) b delta)) := by
  obtain ⟨p, w, w', stands, rfl, rfl, visited⟩ := evaluated
  obtain ⟨w₁, visited'⟩ := exists_visit computes passive (p.evaluations + 1 + 1)
    (Vec.zipWith (· - ·) p.beta delta) w'
  exact ⟨_, _, w₁, .stepped stands visited assessed long, rfl, rfl, visited'⟩

end Computes

end BalanceFit.Newton
