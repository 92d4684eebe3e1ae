import BalanceFit.Proofs.Run.Relation

/-!
# The trace has no effect

What a run returns, and what it does to the user's state, depends on that state alone: nothing reads
the trace that it leaves. So two runs can be compared although they print different lines, and a
line that is printed can be left out.

Having the same effect is a relation between two runs that begin with equal states and any traces:
worlds with equal states of the user are related, whatever the traces. It is symmetric and
transitive. That a run has the same effect as itself says that no trace makes a difference to it.

## Main definitions

* `Run.SameEffect` : two runs give equal results and leave equal states, whatever the traces

## Main statements

* `Run.SameEffect.bind` : runs in two parts have the same effect if both parts do
* `Run.SameEffect.printFrom_bind` : at a level of verbosity, lines can be left out
* `Newton.sameEffect_newton` : an iteration has the same effect as itself
-/

namespace BalanceFit

namespace Run

variable {σ α β γ : Type}

/-- Where they begin with equal states, two runs give equal results and leave equal states. -/
def SameEffect (r r' : Run σ α β) : Prop :=
  ∀ w w' : World σ α, w.user = w'.user →
    (r.run.run w).1 = (r'.run.run w').1 ∧ (r.run.run w).2.user = (r'.run.run w').2.user

variable {r r' r'' : Run σ α β}

theorem SameEffect.symm (h : SameEffect r r') : SameEffect r' r := by
  intro w w' same
  obtain ⟨result, state⟩ := h w' w same.symm
  exact ⟨result.symm, state.symm⟩

theorem SameEffect.trans (h : SameEffect r r') (h' : SameEffect r' r'') : SameEffect r r'' := by
  intro w w' same
  obtain ⟨result, state⟩ := h w w rfl
  obtain ⟨result', state'⟩ := h' w w' same
  exact ⟨result.trans result', state.trans state'⟩

/-- Two runs from the beginning give the same result if they have the same effect. -/
theorem SameEffect.start_eq (h : SameEffect r r') (u : σ) : (start u r).1 = (start u r').1 :=
  (h _ _ rfl).1

/-- If one run returns, so does another one with the same effect. -/
theorem SameEffect.exists_returns (h : SameEffect r r') {w w₁ : World σ α} {b : β}
    (returned : Returns r w b w₁) (w' : World σ α) (same : w.user = w'.user) :
    ∃ w₂, Returns r' w' b w₂ := by
  obtain ⟨result, -⟩ := h w w' same
  rw [returned] at result
  exact ⟨(r'.run.run w').2, Prod.ext result.symm rfl⟩

/-- Having the same effect is being related by the user's state. -/
theorem sameEffect_iff :
    SameEffect r r' ↔ Act.Related (fun w w' : World σ α => w.user = w'.user) r r' :=
  Iff.rfl

theorem sameEffect_ofExcept (x : Except Fault β) :
    SameEffect (ofExcept x : Run σ α β) (ofExcept x) :=
  sameEffect_iff.2 (Act.related_result x)

theorem sameEffect_pure (b : β) : SameEffect (pure b : Run σ α β) (pure b) :=
  sameEffect_ofExcept (.ok b)

theorem sameEffect_act (a : Act σ β) : SameEffect (act a : Run σ α β) (act a) := by
  intro w w' same
  change (a.run.run w.user).1 = (a.run.run w'.user).1 ∧
    (a.run.run w.user).2 = (a.run.run w'.user).2
  rw [same]
  exact ⟨rfl, rfl⟩

theorem sameEffect_note (visit : Visit α) : SameEffect (note visit : Run σ α Unit) (pure ()) :=
  fun _ _ same => ⟨rfl, same⟩

/-- Runs in two parts have the same effect if both parts do. The second parts are compared at equal
results of the first ones. -/
theorem SameEffect.bind {x x' : Run σ α β} {f f' : β → Run σ α γ} (first : SameEffect x x')
    (second : ∀ b, SameEffect (f b) (f' b)) : SameEffect (x >>= f) (x' >>= f') :=
  sameEffect_iff.2 (Act.Related.bind (sameEffect_iff.1 first) fun b => sameEffect_iff.1 (second b))

/-- What is printed makes no difference. -/
theorem sameEffect_printFrom (k : Int) (v : Verbosity) (line line' : Line α) :
    SameEffect (printFrom k v line : Run σ α Unit) (printFrom k v line') :=
  sameEffect_iff.2 (related_printFrom_of (fun _ _ same => same) k v)

/-- At a level of verbosity a line can be left out. -/
theorem sameEffect_printFrom_level (k level : Int) (line : Line α) :
    SameEffect (printFrom k (.level level) line : Run σ α Unit) (pure ()) := by
  intro w w' same
  obtain ⟨w₁, printed⟩ := exists_printFrom k level line w
  obtain ⟨b, -, after⟩ := returns_printFrom_iff.1 printed
  rw [printed, after]
  refine ⟨rfl, ?_⟩
  cases b <;> exact same

theorem SameEffect.printFrom_bind {k level : Int} {line : Line α} (h : SameEffect r r') :
    SameEffect (printFrom k (.level level) line >>= fun _ => r) r' := by
  rw [← pure_bind () fun _ => r']
  exact (sameEffect_printFrom_level k level line).bind fun _ => h

end Run

namespace Newton

open Run

variable {α σ : Type} [Scalar α] {n : Nat} (model : Model (Act σ) α) (store : Store α)
  (config : Config α) (observer : Option (Observer σ α))

theorem sameEffect_visit (call : Nat) (beta : Vec α n) :
    SameEffect (visit model store config observer call beta)
      (visit model store config observer call beta) := by
  refine (sameEffect_act _).bind fun s => ?_
  cases observer with
  | none => exact sameEffect_pure _
  | some o =>
    refine SameEffect.bind ?_ fun _ => (sameEffect_act _).bind fun _ => sameEffect_pure _
    exact (sameEffect_note _).trans (sameEffect_note _).symm

/-- No trace makes a difference to an iteration. -/
theorem sameEffect_newton (start : Vec α n) :
    SameEffect (newton model store config observer start)
      (newton model store config observer start) :=
  sameEffect_iff.2 (related_newton
    (fun call b => sameEffect_visit model store config observer call b)
    (fun k line => sameEffect_printFrom k config.verbosity line line) start)

end Newton

end BalanceFit
