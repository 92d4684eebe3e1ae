import BalanceFit.Newton
import BalanceFit.Proofs.Run

/-!
# Runs that agree from related states

Two computations are related if, wherever they begin in related states, they give equal results and
leave related states. A computation that is related to itself cannot tell related states apart. This
is a property of its parts: it is kept by the ways to build computations, one after the other and
round after round. A run is a computation whose states are worlds.

## Main definitions

* `Act.Related` : two computations give equal results and leave related states
* `Run.SameTrace` : worlds with equal traces and related states of the user

## Main statements

* `Act.Related.bind`, `Act.Related.foldlM` : computations in several parts are related if their
  parts are
* `Run.related_act` : so are runs that act, in worlds with equal traces
* `Newton.related_iterate` : iterations are related to themselves if their visits and reports are
-/

namespace BalanceFit

variable {σ τ α β γ δ : Type}

/-- Where they begin in related states, two computations give equal results and leave related
states. -/
def Act.Related (R : τ → τ → Prop) (a a' : Act τ β) : Prop :=
  ∀ u v, R u v → (a.run.run u).1 = (a'.run.run v).1 ∧ R (a.run.run u).2 (a'.run.run v).2

namespace Act

variable {R : τ → τ → Prop}

/-- A computation that only fails or gives a result. -/
theorem related_result (x : Except Fault β) :
    Related R (ExceptT.mk (pure x)) (ExceptT.mk (pure x)) :=
  fun _ _ related => ⟨rfl, related⟩

theorem related_pure (b : β) : Related R (pure b) (pure b) := related_result (.ok b)

/-- The second parts of two computations are compared at results of the first ones that agree up to
a function. -/
theorem Related.bind_map {x : Act τ β} {x' : Act τ δ} {g : δ → β} {f : β → Act τ γ}
    {f' : δ → Act τ γ} (first : Related R x (g <$> x'))
    (second : ∀ b, Related R (f (g b)) (f' b)) : Related R (x >>= f) (x' >>= f') := by
  intro u v related
  obtain ⟨result, state⟩ := first u v related
  rw [map_eq_pure_bind, ExceptT.run_bind, StateT.run_bind] at result state
  rw [ExceptT.run_bind, ExceptT.run_bind, StateT.run_bind, StateT.run_bind]
  rcases h : x.run.run u with ⟨_ | b, u₁⟩ <;> rcases h' : x'.run.run v with ⟨_ | b', v₁⟩ <;>
    rw [h, h'] at result state
  -- Both first parts fail, or both hand their results to the second parts.
  · cases result
    exact ⟨rfl, state⟩
  · cases result
  · cases result
  · cases result
    exact second b' u₁ v₁ state

/-- The second parts of two computations are compared at equal results of the first ones. -/
theorem Related.bind {x x' : Act τ β} {f f' : β → Act τ γ} (first : Related R x x')
    (second : ∀ b, Related R (f b) (f' b)) : Related R (x >>= f) (x' >>= f') := by
  refine bind_map (g := id) ?_ second
  rw [id_map]
  exact first

/-- A computation that goes through a list is related to itself if every round is. -/
theorem Related.foldlM {f : β → γ → Act τ β} (rounds : ∀ b c, Related R (f b c) (f b c))
    (l : List γ) (b : β) : Related R (l.foldlM f b) (l.foldlM f b) := by
  induction l generalizing b with
  | nil => exact related_pure b
  | cons c l ih =>
    rw [List.foldlM_cons]
    exact (rounds b c).bind ih

end Act

namespace Run

/-- Worlds with equal traces, and with related states of the user. -/
structure SameTrace (R : σ → σ → Prop) (w w' : World σ α) : Prop where
  user : R w.user w'.user
  lines : w.lines = w'.lines
  visits : w.visits = w'.visits

variable {R : σ → σ → Prop}

open Act

theorem related_act {a a' : Act σ β} (related : Related R a a') :
    Related (SameTrace R) (act a : Run σ α β) (act a') := by
  intro w w' same
  obtain ⟨result, user⟩ := related w.user w'.user same.user
  exact ⟨result, user, same.lines, same.visits⟩

theorem related_note (visit : Visit α) :
    Related (SameTrace R) (note visit) (note visit : Run σ α Unit) := by
  intro w w' same
  have visits : w.visits.push visit = w'.visits.push visit := by rw [same.visits]
  exact ⟨rfl, same.user, same.lines, visits⟩

/-- Two lines are printed by related runs if worlds with these lines in addition are related. -/
theorem related_printFrom_of {S : World σ α → World σ α → Prop} {line line' : Line α}
    (lines : ∀ w w', S w w' →
      S { w with lines := w.lines.push line } { w' with lines := w'.lines.push line' })
    (k : Int) (v : Verbosity) :
    Related S (printFrom k v line) (printFrom k v line' : Run σ α Unit) := by
  refine (related_result (v.atLeast k)).bind fun b => ?_
  cases b with
  | false => exact related_pure ()
  | true =>
    intro w w' same
    exact ⟨rfl, lines w w' same⟩

theorem related_printFrom (k : Int) (v : Verbosity) (line : Line α) :
    Related (SameTrace R) (printFrom k v line) (printFrom k v line : Run σ α Unit) := by
  apply related_printFrom_of
  intro w w' same
  have lines : w.lines.push line = w'.lines.push line := by rw [same.lines]
  exact ⟨same.user, lines, same.visits⟩

end Run

namespace Newton

open Act

variable [Scalar α] {n : Nat} {model : Model (Act σ) α} {store : Store α} {config : Config α}
  {observer : Option (Observer σ α)} {R : World σ α → World σ α → Prop}

/-- An iteration is related to itself if its visits and its reports are. The induction is on the
evaluations that are left. -/
theorem related_iterate
    (visits : ∀ call (b : Vec α n), Related R (visit model store config observer call b)
      (visit model store config observer call b))
    (reports : ∀ k (line : Line α), Related R (Run.printFrom k config.verbosity line : Run σ α Unit)
      (Run.printFrom k config.verbosity line))
    (remaining : Nat) (p : Progress α n) :
    Related R (iterate model store config observer remaining p)
      (iterate model store config observer remaining p) := by
  induction remaining generalizing p with
  | zero => exact related_pure _
  | succ remaining ih =>
    refine (visits _ _).bind fun (beta, s) => ?_
    refine (reports _ _).bind fun _ => (reports _ _).bind fun _ => (reports _ _).bind fun _ => ?_
    refine (related_result _).bind fun verdict => ?_
    cases verdict with
    | stop outcome => exact related_pure _
    | step delta =>
      refine (reports _ _).bind fun _ => ?_
      split
      · exact related_pure _
      · exact ih _

theorem related_newton
    (visits : ∀ call (b : Vec α n), Related R (visit model store config observer call b)
      (visit model store config observer call b))
    (reports : ∀ k (line : Line α), Related R (Run.printFrom k config.verbosity line : Run σ α Unit)
      (Run.printFrom k config.verbosity line))
    (start : Vec α n) :
    Related R (newton model store config observer start)
      (newton model store config observer start) := by
  rw [newton]
  split
  · exact related_iterate visits reports _ _
  · exact related_pure _

end Newton

end BalanceFit
