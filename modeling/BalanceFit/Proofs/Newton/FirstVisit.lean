import Mathlib.Data.List.Infix
import BalanceFit.Proofs.Newton.Report

/-!
# Where an iteration begins

The starting coefficients are the first iterate that is evaluated. What is shown and printed of them
comes first in the trace of an iteration, since whatever happens later only adds to the trace.

## Main definitions

* `World.Begins` : a trace that begins as another one does
* `Run.Continues` : the relation between equal worlds whose trace begins in a given way
* `Newton.FirstVisit` : what was evaluated, shown and printed first

## Main statements

* `Newton.begins_of_iterate` : an iteration only adds to the trace
* `Newton.first_visit_of_newton` : what an iteration shows and prints first
-/

namespace BalanceFit

variable {α σ : Type}

/-- The trace of the second world begins with the trace of the first one. -/
structure World.Begins (t w : World σ α) : Prop where
  lines : t.lines.toList <+: w.lines.toList
  visits : t.visits.toList <+: w.visits.toList

theorem World.Begins.refl (w : World σ α) : w.Begins w := ⟨List.prefix_refl _, List.prefix_refl _⟩

theorem World.Begins.trans {t w w' : World σ α} (first : t.Begins w) (second : w.Begins w') :
    t.Begins w' :=
  ⟨first.lines.trans second.lines, first.visits.trans second.visits⟩

namespace Run

open Act

/-- One world is related to itself if its trace begins as that of `t` does. A run that is related to
itself by this relation does not take anything out of the trace. -/
def Continues (t w w' : World σ α) : Prop := w = w' ∧ t.Begins w

variable {t : World σ α}

theorem related_act_continues {β : Type} (a : Act σ β) :
    Related (Continues t) (act a : Run σ α β) (act a) := by
  rintro w w' ⟨rfl, begins⟩
  exact ⟨rfl, rfl, begins.lines, begins.visits⟩

theorem related_note_continues (visit : Visit α) :
    Related (Continues t) (note visit : Run σ α Unit) (note visit) := by
  rintro w w' ⟨rfl, begins⟩
  refine ⟨rfl, rfl, begins.lines, begins.visits.trans ?_⟩
  change _ <+: (w.visits.push visit).toList
  rw [Array.toList_push]
  exact List.prefix_append _ _

theorem related_printFrom_continues (k : Int) (v : Verbosity) (line : Line α) :
    Related (Continues t) (printFrom k v line : Run σ α Unit) (printFrom k v line) := by
  apply related_printFrom_of
  rintro w w' ⟨rfl, begins⟩
  refine ⟨rfl, begins.lines.trans ?_, begins.visits⟩
  rw [Array.toList_push]
  exact List.prefix_append _ _

/-- Such a run leaves a trace that begins with what was there before. -/
theorem begins_of_related {β : Type} {r : Run σ α β} {w w' : World σ α} {b : β}
    (related : Related (Continues w) r r) (returned : Returns r w b w') : w.Begins w' := by
  obtain ⟨-, -, begins⟩ := related w w ⟨rfl, .refl w⟩
  rwa [returned] at begins

end Run

namespace Newton

open Act Run

variable [Scalar α] {n : Nat} {model : Model (Act σ) α} {store : Store α} {config : Config α}
  {observer : Option (Observer σ α)} {t w w' : World σ α}

theorem related_visit_continues (call : Nat) (b : Vec α n) :
    Related (Continues t) (visit model store config observer call b)
      (visit model store config observer call b) := by
  refine (related_act_continues _).bind fun s => ?_
  cases observer with
  | none => exact related_pure _
  | some o =>
    refine (related_note_continues _).bind fun _ => ?_
    exact (related_act_continues _).bind fun _ => related_pure _

/-- An iteration only adds to the trace. -/
theorem begins_of_iterate {remaining : Nat} {p : Progress α n} {r : FitResult (Vec α n) α}
    (returned : Returns (iterate model store config observer remaining p) w r w') : w.Begins w' :=
  begins_of_related (related_iterate related_visit_continues
    (fun k line => related_printFrom_continues k _ line) remaining p) returned

/-- So does what follows from a verdict. -/
theorem begins_of_follow {p : Progress α n} {verdict : Verdict α n} {turn : Turn α n}
    (returned : Returns (follow config p verdict) w turn w') : w.Begins w' := by
  cases verdict with
  | stop outcome =>
    obtain ⟨-, rfl⟩ := returns_pure_iff.1 returned
    exact .refl w
  | step delta =>
    refine begins_of_related ((related_printFrom_continues _ _ _).bind fun _ => ?_) returned
    split
    · exact related_pure _
    · exact related_pure _

omit [Scalar α] in
/-- A report prints the count first. -/
theorem begins_of_report {p : Progress α n} {beta : Vec α n} {s : System α n} {v : Int}
    (loud : 1 ≤ v) (leveled : config.verbosity = .level v)
    (reported : Returns (report config p beta s) w () w') :
    w.lines.toList ++ [.iteration p.evaluations p.absBalance] <+: w'.lines.toList := by
  rw [report, leveled] at reported
  obtain ⟨_, w₁, first, rest⟩ := returns_bind_iff.1 reported
  obtain rfl := eq_of_printFrom loud first
  rw [← Array.toList_push]
  exact (begins_of_related ((related_printFrom_continues _ _ _).bind fun _ =>
    related_printFrom_continues _ _ _) rest).lines

/-- From `w` to `w'` the iterate `b` was evaluated first, and the model wrote `s`: an observer was
shown it with the regularized balance there, and the line that counts the evaluation has the total
of that balance. -/
structure FirstVisit (model : Model (Act σ) α) (store : Store α) (config : Config α)
    (observer : Option (Observer σ α)) (w w' : World σ α) (b : Vec α n) (s : System α n) :
    Prop where
  ran : ∃ u, (model.evaluate store (.ofVec b) System.zero).run.run w.user = (.ok s, u)
  shown : observer.isSome → w.visits.toList ++
    [⟨b.toList, (s.regularize config.epsilon b).balance.toList⟩] <+: w'.visits.toList
  printed : ∀ v, 1 ≤ v → config.verbosity = .level v → w.lines.toList ++
    [.iteration 1 (s.regularize config.epsilon b).balance.absTotal] <+: w'.lines.toList

/-- **What an iteration shows and prints first.** If it evaluates anything, it evaluates the
starting coefficients first. -/
theorem first_visit_of_newton {start : Vec α n} {r : FitResult (Vec α n) α}
    (looks : ∀ o ∈ observer, o.LooksOnly) (evaluated : 1 ≤ r.iterations)
    (returned : Returns (newton model store config observer start) w r w') :
    ∃ s, FirstVisit model store config observer w w' start s := by
  rw [newton] at returned
  split at returned
  case isFalse =>
    obtain ⟨rfl, -⟩ := returns_pure_iff.1 returned
    exact absurd evaluated (Nat.not_succ_le_zero 0)
  case isTrue =>
    rcases budget : config.maxIter with _ | remaining <;> rw [budget] at returned
    · obtain ⟨rfl, -⟩ := returns_pure_iff.1 returned
      exact absurd evaluated (Nat.not_succ_le_zero 0)
    rw [iterate_succ_eq_round, returns_bind_iff] at returned
    obtain ⟨turn, w₃, rounded, rest⟩ := returned
    obtain ⟨beta, s, w₁, w₂, verdict, visited, reported, -, followed⟩ :=
      exists_parts_of_round rounded
    have lines := lines_of_visit visited
    obtain ⟨t, u, visited⟩ := exists_visited visited
    obtain ⟨rfl, rfl⟩ := visited.looked looks
    have later : w₂.Begins w' := by
      refine (begins_of_follow followed).trans ?_
      cases turn with
      | inl q => exact begins_of_iterate rest
      | inr ended =>
        obtain ⟨-, rfl⟩ := returns_pure_iff.1 rest
        exact .refl w₃
    have unshown := (level_of_report reported).2.visits
    refine ⟨t, ⟨u, visited.ran⟩, fun shown => ?_, fun v loud leveled => ?_⟩
    · have begins := later.visits
      rw [unshown, visited.call shown, Array.toList_push] at begins
      exact begins
    · rw [← lines]
      exact (begins_of_report loud leveled reported).trans later.lines

end Newton

end BalanceFit
