import BalanceFit.Store.Session

/-!
# Append-only logs

A ledger is what a store is meant to be: a log, and what is known of the length of its predictors.
It keeps no arrays, so none can be out of date, and it says for every request what the answer is and
what the log is afterwards.

## Main definitions

* `Store.Ledger` : a log without arrays
* `Ledger.admit?` : the observation that an append would add
* `Ledger.after`, `Ledger.Answers` : the effect of a request, and the answers to it
* `Ledger.Uniform` : all predictors have one length, which is what the ledger was told
* `Ledger.Untold` : an empty ledger has not been told a length

## Main statements

* `Ledger.uniform_after`, `Ledger.uniform_foldl` : a request keeps a ledger uniform, and so do any
  requests
* `Ledger.Untold.after` : if an empty ledger has not been told a length, it does not learn one
-/

namespace BalanceFit.Store

variable {α : Type}

/-- A log of observations, and what is known of the length of their predictors. -/
structure Ledger (α : Type) where
  width : Option Width
  log : List (Observation α)

namespace Ledger

/-- The observation that is appended if all of this is true: the predictor is a vector with an
entry, its length is as the ledger knows it, and the response and the weight are numbers. -/
def admit? (l : Ledger α) :
    Except Fault (Grid α) → Except Fault α → Except Fault α → Option (Observation α)
  | .ok x, .ok y, .ok weight =>
    if x.shape.length = 1 ∧ 1 ≤ x.entries.length ∧
        ∀ w, l.width = some w → w.admits x.entries.length = true then
      some ⟨x.entries, y, weight⟩
    else none
  | _, _, _ => none

/-- The ledger with an observation appended. -/
def push (l : Ledger α) (o : Observation α) : Ledger α :=
  ⟨some (.whole o.x.length), l.log ++ [o]⟩

/-- The ledger with an observation appended, if there is one. -/
def pushIf (l : Ledger α) : Option (Observation α) → Ledger α
  | some o => l.push o
  | none => l

/-- Whether all rows can be appended, and the ledger with those that come before the first that
cannot. -/
def pushRows (l : Ledger α) : List (Grid α × α × α) → Bool × Ledger α
  | [] => (true, l)
  | (x, y, weight) :: rest =>
    match l.admit? (.ok x) (.ok y) (.ok weight) with
    | some o => (l.push o).pushRows rest
    | none => (false, l)

/-- The ledger after a request. -/
def after [One α] (l : Ledger α) : Request α → Ledger α
  | .add x y weight | .addAndSpoil x y weight _ => l.pushIf (l.admit? x y weight)
  | .extend x y weights =>
    match rowsOf x y weights with
    | .ok rows => (l.pushRows rows).2
    | .error _ => l
  | _ => l

/-- The observation at an index; `-1` is the last one, and `-n` the first of `n`. -/
def nth? (l : Ledger α) : Int → Option (Observation α)
  | .ofNat i => l.log[i]?
  | .negSucc k => if k < l.log.length then l.log[l.log.length - (k + 1)]? else none

/-- The number of columns of the predictors as an array. Without a row this is the length that the
ledger was told, as far as an array can have so many columns. -/
def columns? (l : Ledger α) : Option Nat :=
  match l.log, l.width with
  | o :: _, _ => some o.x.length
  | [], none => some 0
  | [], some (.whole n) => if n < Width.columnLimit then some n.toNat else none
  | [], some _ => none

/-- The ledger in short. -/
def summary (l : Ledger α) : String :=
  let width := ((l.width.map Width.toEntry).getD .nothing).shown
  "ObservationStore(n=" ++ toString l.log.length ++ ", n_features=" ++ width ++ ")"

/-- Whether a request is answered as the ledger says. Nothing can be written; an array that is held
counts as current only if it shows the log. -/
def Answers [One α] (l : Ledger α) (reply : Except Fault (Reply α)) : Request α → Prop
  | .add x y weight =>
    match l.admit? x y weight with
    | some o => reply = .ok (.observation o)
    | none => ∃ f, reply = .error f
  | .addAndSpoil x y weight _ =>
    match l.admit? x y weight with
    | some o => reply = .ok (.observation o) ∨ ∃ f, reply = .error f
    | none => ∃ f, reply = .error f
  | .extend x y weights =>
    match rowsOf x y weights with
    | .ok rows => if (l.pushRows rows).1 then reply = .ok .nothing else ∃ f, reply = .error f
    | .error f => reply = .error f
  | .views =>
    match l.columns? with
    | some p => ∃ v, reply = .ok (.views v) ∧ v.columns = p ∧ v.x = l.log.map (·.x) ∧
        v.y = l.log.map (·.y) ∧ v.weight = l.log.map (·.weight)
    | none => ∃ f, reply = .error f
  | .nth i =>
    match l.nth? i with
    | some o => reply = .ok (.observation o)
    | none => reply = .error .noSuchIndex
  | .all => reply = .ok (.all l.log)
  | .hold =>
    match l.columns? with
    | some _ => reply = .ok (.predictors (l.log.map (·.x)))
    | none => ∃ f, reply = .error f
  | .held => ∀ x, reply = .ok (.held x true) → x = l.log.map (·.x)
  | .write _ | .set _ => ∃ f, reply = .error f
  | .summary => reply = .ok (.summary l.summary)

/-- All predictors of a ledger have one length. Before the first one the ledger knows what it was
told; from then on it knows the length, which agrees with what it was told. -/
def Uniform (told : Option Width) (l : Ledger α) : Prop :=
  l.log = [] ∧ l.width = told ∨
    ∃ p : Nat, l.width = some (.whole p) ∧ 1 ≤ p ∧ (∀ w, told = some w → w.admits p = true) ∧
      ∀ o ∈ l.log, o.x.length = p

/-- An observation is appended exactly if its parts are numbers and its predictor fits. -/
theorem admit?_eq_some_iff {l : Ledger α} {x : Except Fault (Grid α)} {y weight : Except Fault α}
    {o : Observation α} :
    l.admit? x y weight = some o ↔
      (∃ g, x = .ok g ∧ g.shape.length = 1 ∧ g.entries = o.x) ∧ y = .ok o.y ∧
        weight = .ok o.weight ∧ 1 ≤ o.x.length ∧
          ∀ w, l.width = some w → w.admits o.x.length = true := by
  constructor
  · intro admitted
    rw [admit?.eq_def] at admitted
    split at admitted
    case h_1 x y weight =>
      split at admitted
      case isTrue fits =>
        cases admitted
        exact ⟨⟨x, rfl, fits.1, rfl⟩, rfl, rfl, fits.2⟩
      case isFalse => cases admitted
    case h_2 => cases admitted
  · rintro ⟨⟨g, rfl, axes, entries⟩, rfl, rfl, fits⟩
    rw [← entries] at fits
    rw [admit?, if_pos ⟨axes, fits⟩, entries]

section Uniform

variable {told : Option Width} {l : Ledger α}

/-- An observation that fits keeps a ledger uniform: either it comes first, and its length agrees
with what the ledger was told, or it has the length of the others. -/
theorem Uniform.push (uniform : Uniform told l) {o : Observation α} (nonempty : 1 ≤ o.x.length)
    (agrees : ∀ w, l.width = some w → w.admits o.x.length = true) : Uniform told (l.push o) := by
  refine .inr ⟨o.x.length, rfl, nonempty, ?_⟩
  rcases uniform with ⟨fresh, same⟩ | ⟨p, width, -, admits, lengths⟩
  · rw [same] at agrees
    refine ⟨agrees, fun o' member => ?_⟩
    rw [Ledger.push, fresh, List.nil_append, List.mem_singleton] at member
    rw [member]
  · have length : o.x.length = p := by
      have := agrees _ width
      rw [Width.admits, beq_iff_eq] at this
      omega
    rw [length]
    refine ⟨admits, fun o' member => ?_⟩
    rcases List.mem_append.1 member with earlier | last
    · exact lengths o' earlier
    · rw [List.mem_singleton.1 last, length]

theorem Uniform.pushIf (uniform : Uniform told l) (x : Except Fault (Grid α))
    (y weight : Except Fault α) : Uniform told (l.pushIf (l.admit? x y weight)) := by
  cases admitted : l.admit? x y weight with
  | none => exact uniform
  | some o =>
    obtain ⟨-, -, -, nonempty, agrees⟩ := admit?_eq_some_iff.1 admitted
    exact uniform.push nonempty agrees

theorem Uniform.pushRows (uniform : Uniform told l) (rows : List (Grid α × α × α)) :
    Uniform told (l.pushRows rows).2 := by
  induction rows generalizing l with
  | nil => exact uniform
  | cons row rest ih =>
    obtain ⟨x, y, weight⟩ := row
    have step := uniform.pushIf (.ok x) (.ok y) (.ok weight)
    rw [Ledger.pushRows]
    cases admitted : l.admit? (.ok x) (.ok y) (.ok weight) with
    | none => exact uniform
    | some o =>
      rw [admitted] at step
      exact ih step

theorem uniform_after [One α] (uniform : Uniform told l) (r : Request α) :
    Uniform told (l.after r) := by
  cases r
  case add x y weight => exact uniform.pushIf x y weight
  case addAndSpoil x y weight value => exact uniform.pushIf x y weight
  case extend x y weights =>
    rw [after]
    cases rowsOf x y weights with
    | ok rows => exact uniform.pushRows rows
    | error f => exact uniform
  all_goals exact uniform

theorem uniform_foldl [One α] (told : Option Width) (rs : List (Request α)) :
    Uniform told (rs.foldl after ⟨told, []⟩) := by
  have run (l : Ledger α) (uniform : Uniform told l) : Uniform told (rs.foldl after l) := by
    induction rs generalizing l with
    | nil => exact uniform
    | cons r rs ih => exact ih (l.after r) (uniform_after uniform r)
  exact run _ (.inl ⟨rfl, rfl⟩)

/-- What is uniform about the observations of a uniform ledger. -/
theorem Uniform.length (uniform : Uniform told l) {o : Observation α} (member : o ∈ l.log) :
    1 ≤ o.x.length ∧ l.width = some (.whole o.x.length) ∧
      ∀ w, told = some w → w.admits o.x.length = true := by
  rcases uniform with ⟨fresh, -⟩ | ⟨p, width, nonempty, admits, lengths⟩
  · rw [fresh] at member
    cases member
  · rw [lengths o member]
    exact ⟨nonempty, width, admits⟩

end Uniform

section Untold

/-- As long as a ledger is empty it does not know a length. -/
def Untold (l : Ledger α) : Prop := l.log = [] → l.width = none

variable {l : Ledger α}

theorem untold_push (l : Ledger α) (o : Observation α) : (l.push o).Untold :=
  fun empty => absurd empty (List.append_ne_nil_of_right_ne_nil l.log (List.cons_ne_nil o []))

theorem Untold.pushIf (untold : l.Untold) (o : Option (Observation α)) : (l.pushIf o).Untold := by
  cases o with
  | none => exact untold
  | some o => exact untold_push l o

theorem Untold.pushRows (untold : l.Untold) (rows : List (Grid α × α × α)) :
    (l.pushRows rows).2.Untold := by
  induction rows generalizing l with
  | nil => exact untold
  | cons row rest ih =>
    obtain ⟨x, y, weight⟩ := row
    rw [Ledger.pushRows]
    split
    · exact ih (untold_push _ _)
    · exact untold

theorem Untold.after [One α] (untold : l.Untold) (r : Request α) : (l.after r).Untold := by
  cases r
  case add x y weight => exact untold.pushIf _
  case addAndSpoil x y weight value => exact untold.pushIf _
  case extend x y weights =>
    rw [Ledger.after]
    cases rowsOf x y weights with
    | ok rows => exact untold.pushRows rows
    | error f => exact untold
  all_goals exact untold

end Untold

end Ledger

end BalanceFit.Store
