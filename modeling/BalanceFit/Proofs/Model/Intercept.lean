import BalanceFit.Proofs.Fitter.WarmStart
import BalanceFit.Proofs.Model.Family

/-!
# An intercept is a constant predictor

A model with an intercept puts a one behind every predictor when it sets up its design. Put there
before the observations are stored, the one does the same for the model without an intercept: both
models have the same design rows, and with them the same systems and the same iterations.

## Main definitions

* `Observation.augmented` : an observation with a one behind its predictor

## Main statements

* `GeneralizedLinear.evaluate_augmented` : the two models evaluate to the same systems
* `GeneralizedLinear.fromGrid_augmented` : their iterations cannot be told apart
-/

namespace BalanceFit

variable {α σ : Type} [Scalar α]

/-- The observation with a one behind its predictor. -/
def Observation.augmented (o : Observation α) : Observation α := { o with x := o.x ++ [1] }

/-- The design row of an observation with the intercept is that of the observation with the one. -/
theorem Design.sample_augmented (p : Nat) (o : Observation α) :
    Design.sample p false o.augmented = Design.sample p true o := rfl

namespace GeneralizedLinear

variable [Transcendental α] {store store' : Store α} {o : Observation α}

/-- Over a store and over the one with the augmented observations the two models evaluate to the
same, at coefficients of any shape. -/
theorem evaluate_augmented (family : Option (Family α)) (member : o ∈ store.log)
    (log : store'.log = store.log.map Observation.augmented) (n : Nat) (beta : Grid α) :
    (⟨family, false⟩ : GeneralizedLinear α).evaluate n store' beta =
      (⟨family, true⟩ : GeneralizedLinear α).evaluate n store beta := by
  have member' : o.augmented ∈ store'.log := by
    rw [log]
    exact List.mem_map_of_mem member
  obtain ⟨stamp, stacked⟩ := Store.views_of_columns? (Store.columns?_of_mem member)
  obtain ⟨stamp', stacked'⟩ := Store.views_of_columns? (Store.columns?_of_mem member')
  have length : o.augmented.x.length = o.x.length + 1 := by simp [Observation.augmented]
  have samples : (Views.stack stamp' (o.x.length + 1) store'.log).samples (o.x.length + 1) false =
      (Views.stack stamp o.x.length store.log).samples (o.x.length + 1) true := by
    rw [Views.samples_stack, Views.samples_stack, log, List.map_map]
    exact List.map_congr_left fun o' _ => Design.sample_augmented _ o'
  -- Both models read the length of the rows off the arrays, so the two lengths have to be the same
  -- before the samples can be compared.
  rw [length] at stacked'
  rw [evaluate, evaluate, stacked, stacked']
  simp only [bind, Except.bind]
  have rows : (Views.stack stamp' (o.x.length + 1) store'.log).rowLength false = o.x.length + 1 :=
    rfl
  have rows' : (Views.stack stamp o.x.length store.log).rowLength true = o.x.length + 1 := rfl
  rw [rows, rows', samples]

/-- **An intercept is a constant predictor.** From starting coefficients of any shape, with any
parameters and any observer, the iteration for the model with an intercept and the one for the model
without it, over the store with the augmented observations, have the same result, make the same
calls of the observer, leave the user's state the same and print the same lines. The models ask for
the same number of coefficients. -/
theorem fromGrid_augmented (family : Option (Family α)) (member : o ∈ store.log)
    (log : store'.log = store.log.map Observation.augmented) (config : Config α)
    (observer : Option (Observer σ α)) (beta : Grid α) (u : σ) :
    let fitted : Model (Act σ) α := (⟨family, true⟩ : GeneralizedLinear α).model.lift
    let plain : Model (Act σ) α := (⟨family, false⟩ : GeneralizedLinear α).model.lift
    Run.start u (Newton.fromGrid fitted store config observer beta) =
        Run.start u (Newton.fromGrid plain store' config observer beta) ∧
      ∀ o' ∈ store.log, fitted.dim o' = plain.dim o'.augmented := by
  intro fitted plain
  have same {n : Nat} (b : Grid α) :
      fitted.evaluate store b System.zero = plain.evaluate store' b (System.zero : System α n) := by
    change ExceptT.mk (pure ((⟨family, true⟩ : GeneralizedLinear α).evaluate n store b)) =
      ExceptT.mk (pure ((⟨family, false⟩ : GeneralizedLinear α).evaluate n store' b))
    rw [evaluate_augmented family member log]
  have iterations : Newton.fromGrid fitted store config observer beta =
      Newton.fromGrid plain store' config observer beta :=
    Newton.fromGrid_eq_of_evaluate same beta
  refine ⟨by rw [iterations], fun o' _ => ?_⟩
  have sizes : (⟨family, true⟩ : GeneralizedLinear α).dim o'.x.length =
      (⟨family, false⟩ : GeneralizedLinear α).dim o'.augmented.x.length := by
    simp [dim, Observation.augmented]
  simp only [fitted, plain, Model.dim, Model.lift, model, Option.map_some, sizes]

/-- So it is for Poisson regression on two counts, from the coefficients zero and one. -/
theorem fromGrid_augmented_counts :
    let store : Store ℝ := .ofLog 1 [⟨[2], 3, 1⟩, ⟨[-1], 0, 2⟩] (by decide)
    let store' : Store ℝ := .ofLog 2 [⟨[2, 1], 3, 1⟩, ⟨[-1, 1], 0, 2⟩] (by decide)
    let fitted : Model (Act Unit) ℝ := (⟨some .poisson, true⟩ : GeneralizedLinear ℝ).model.lift
    let plain : Model (Act Unit) ℝ := (⟨some .poisson, false⟩ : GeneralizedLinear ℝ).model.lift
    let config : Config ℝ := ⟨1, 0, 3, 0, 100, .level 2, true⟩
    store'.log = store.log.map Observation.augmented ∧
      Run.start () (Newton.fromGrid fitted store config none (.ofList [0, 1])) =
        Run.start () (Newton.fromGrid plain store' config none (.ofList [0, 1])) ∧
      ∀ o ∈ store.log, fitted.dim o = plain.dim o.augmented := by
  intro store store' fitted plain config
  have log : store'.log = store.log.map Observation.augmented := rfl
  have member : (⟨[2], 3, 1⟩ : Observation ℝ) ∈ store.log := List.mem_cons_self
  exact ⟨log, fromGrid_augmented (some .poisson) member log config none (.ofList [0, 1]) ()⟩

end GeneralizedLinear

end BalanceFit
