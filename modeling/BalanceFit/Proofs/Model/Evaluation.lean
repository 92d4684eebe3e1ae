import BalanceFit.Model.GeneralizedLinear
import BalanceFit.Proofs.Newton.Visit
import BalanceFit.Proofs.Store.Refinement

/-!
# What a generalized linear model evaluates

A generalized linear model sums over the observations of a store. It does so exactly if the
coefficients are a vector as long as the design rows: for other vectors it has no columns to work
with, and fails.

## Main definitions

* `Design.sample` : an observation as a sample

## Main statements

* `GeneralizedLinear.evaluate_eq_ok_iff` : when the evaluation at a vector returns, and what
* `GeneralizedLinear.evaluate_lift_eq` : what the model writes over buffers
* `GeneralizedLinear.computes` : for vectors of the right length the model computes a function
* `GeneralizedLinear.evaluate_single_ne_ok` : at a single value it never does
-/

namespace BalanceFit

variable {α : Type} [Scalar α]

/-- The sample for an observation. -/
def Design.sample (p : Nat) (intercept : Bool) (o : Observation α) : Sample α p :=
  ⟨Design.row p intercept o.x, o.y, o.weight⟩

/-- The samples of a stacked log are those of its observations. -/
theorem Views.samples_stack (stamp columns p : Nat) (intercept : Bool)
    (log : List (Observation α)) :
    (Views.stack stamp columns log).samples p intercept = log.map (Design.sample p intercept) := by
  rw [Views.samples, Views.stack, List.zip_map', List.zip_map', List.map_map]
  rfl

/-- Coefficients that are no columns give no linear predictors. -/
theorem Design.predictors?_eq_none {p : Nat} (samples : List (Sample α p)) {beta : Grid α}
    (axes : beta.shape.length ≤ 1) : Design.predictors? samples beta = none := by
  rw [Design.predictors?, Grid.timesLeft?]
  have split : Grid.splitShape beta.shape = ([], beta.shape) := by
    rw [Grid.splitShape, Nat.sub_eq_zero_of_le (by omega), List.splitAt_eq]
    rfl
  rw [split]
  match beta.shape, axes with
  | [], _ => rfl
  | [_], _ => rfl

namespace GeneralizedLinear

variable [Transcendental α] {g : GeneralizedLinear α} {f : Family α} {store : Store α} {n : Nat}

/-- The evaluation at a vector returns exactly if the vector is as long as the design rows. Then it
gives the sums over the observations. -/
theorem evaluate_eq_ok_iff (family : g.family = some f) {beta : Vec α n} {s : System α n} :
    g.evaluate n store (.ofVec beta) = .ok s ↔
      (∃ p, store.ledger.columns? = some p ∧ n = g.dim p) ∧
        s = f.system (store.log.map (Design.sample n g.intercept)) beta := by
  rw [evaluate]
  cases columns : store.ledger.columns? with
  | none =>
    obtain ⟨e, failed⟩ := Store.views_of_not_columns? columns
    rw [failed]
    exact iff_of_false nofun fun ⟨⟨p, known, _⟩, _⟩ => nomatch known
  | some p =>
    obtain ⟨stamp, stacked⟩ := Store.views_of_columns? columns
    simp only [stacked, bind, Except.bind, family, Views.samples_stack]
    -- As a variable the length of the design rows can take the place of `n`.
    generalize row : (Views.stack stamp p store.log).rowLength g.intercept = length
    have known : (∃ p', some p = some p' ∧ n = g.dim p') ↔ n = length := by
      rw [← row]
      exact ⟨fun ⟨p', same, size⟩ => by cases same; exact size, fun size => ⟨p, rfl, size⟩⟩
    rw [known]
    by_cases size : n = length
    · subst size
      have fits (t : System α n) : t.spread? n = some t := dif_pos rfl
      rw [Grid.toVec?_ofVec]
      dsimp only
      rw [fits]
      constructor
      · intro returned
        cases returned
        exact ⟨rfl, rfl⟩
      · rintro ⟨-, rfl⟩
        rfl
    · -- A vector of another length is tried as columns, which it does not have.
      have vector : Grid.toVec? length (Grid.ofVec beta) = none :=
        if_neg fun same => size (List.cons.inj same).1
      have axes : (Grid.ofVec beta).shape.length ≤ 1 := Nat.le_refl 1
      rw [vector]
      dsimp only
      rw [Design.predictors?_eq_none _ axes]
      exact iff_of_false nofun fun fits => size fits.1

/-- As a model that could act, a generalized linear model returns what it evaluates to. -/
theorem evaluate_eq_of_run {σ : Type} {beta : Grid α} {buffers s : System α n} {u u' : σ}
    (ran : (g.model.lift.evaluate store beta buffers).run.run u = (.ok s, u')) :
    g.evaluate n store beta = .ok s :=
  (Prod.mk.inj ran).1

/-- At a vector of the right length it writes the sums over the observations, whatever the buffers
hold. -/
theorem evaluate_lift_eq {σ : Type} (family : g.family = some f)
    (fits : ∃ p, store.ledger.columns? = some p ∧ n = g.dim p) (beta : Vec α n)
    (buffers : System α n) :
    g.model.lift.evaluate store (.ofVec beta) buffers =
      (pure (f.system (store.log.map (Design.sample n g.intercept)) beta) : Act σ (System α n)) := by
  have returned : g.evaluate n store (.ofVec beta) = .ok _ :=
    (evaluate_eq_ok_iff family).2 ⟨fits, rfl⟩
  change ExceptT.mk (pure (g.evaluate n store (.ofVec beta))) = _
  rw [returned]
  rfl

/-- So over vectors of the right length it computes these sums. -/
theorem computes {σ : Type} (family : g.family = some f)
    (fits : ∃ p, store.ledger.columns? = some p ∧ n = g.dim p) :
    (g.model.lift : Model (Act σ) α).Computes store fun beta =>
      f.system (store.log.map (Design.sample n g.intercept)) beta :=
  fun beta => evaluate_lift_eq family fits beta System.zero

/-- A single value is no vector of coefficients. -/
theorem evaluate_single_ne_ok (l : List α) (s : System α n) :
    g.evaluate n store ⟨[], l⟩ ≠ .ok s := by
  rw [evaluate]
  cases views : store.views with
  | error e => exact nofun
  | ok v =>
    have vector : Grid.toVec? (v.rowLength g.intercept) ⟨[], l⟩ = none := if_neg nofun
    have axes : (⟨[], l⟩ : Grid α).shape.length ≤ 1 := Nat.zero_le 1
    simp only [bind, Except.bind]
    rw [vector]
    dsimp only
    rw [Design.predictors?_eq_none _ axes]
    exact nofun

end GeneralizedLinear

end BalanceFit
