import BalanceFit.Grid
import BalanceFit.Store.Width

/-!
# The observations of a fit

A store is an append-only log of weighted observations. All its predictors have one length, which it
is given or takes from the first of them. It is read through arrays that stack the log; they are
built at the first reading after a change and kept until the next one, so a reader that holds them
keeps the log as it was.

## Main definitions

* `Observation α` : a predictor, a response and a weight
* `Views α` : the stacked arrays, and the stamp that tells two stackings apart
* `Store α` : the log and the arrays last built from it
* `Store.add`, `Store.extend` : one observation, and one for each row of an array
* `Store.read` : the arrays
-/

namespace BalanceFit

/-- A weighted observation. -/
structure Observation (α : Type) where
  /-- The predictor. -/
  x : List α
  /-- The response. -/
  y : α
  /-- What the observation counts for. -/
  weight : α
  deriving DecidableEq, Repr

/-- The weight of an observation that is given without one. -/
def Observation.defaultWeight {α : Type} [One α] : α := 1

/-- A log stacked into arrays. -/
structure Views (α : Type) where
  /-- How many stackings were built before this one. -/
  stamp : Nat
  /-- The length of the rows, also where there are none. -/
  columns : Nat
  x : List (List α)
  y : List α
  weight : List α
  deriving DecidableEq, Repr

namespace Views

variable {α : Type}

/-- The arrays of a log. -/
def stack (stamp columns : Nat) (log : List (Observation α)) : Views α :=
  ⟨stamp, columns, log.map (·.x), log.map (·.y), log.map (·.weight)⟩

/-- The number of columns of the stacked predictors: the length of the predictors, as far as it is
known. -/
def columnsOf (width : Option Width) : List (Observation α) → Except Fault Nat
  | [] => match width with
    | none => .ok 0
    | some w => w.columns
  | o :: _ => .ok o.x.length

/-- Arrays show a log if they are a stacking of it, and one built before a number of stackings was
reached. -/
structure Shows (v : Views α) (width : Option Width) (log : List (Observation α)) (built : Nat) :
    Prop where
  earlier : v.stamp < built
  columns_eq : columnsOf width log = .ok v.columns
  eq_stack : v = stack v.stamp v.columns log

end Views

/-- An append-only log of observations, and the arrays last built from it. -/
structure Store (α : Type) where
  /-- What is known of the length of the predictors. -/
  width : Option Width
  log : List (Observation α)
  /-- The arrays of the log, if they have been read since it last changed. -/
  cache : Option (Views α)
  /-- How many arrays have been built. -/
  built : Nat
  uniform : ∀ o ∈ log, 1 ≤ o.x.length ∧ width = some (.whole o.x.length)
  coherent : ∀ v, cache = some v → v.Shows width log built

namespace Store

variable {α : Type}

/-- The store without observations. -/
def empty (width : Option Width) : Store α where
  width := width
  log := []
  cache := none
  built := 0
  uniform := by simp
  coherent := by simp

/-- The number of observations. -/
def size (s : Store α) : Nat := s.log.length

/-- The store with an observation appended whose predictor has an entry and agrees with the width.
The arrays built so far no longer show the log. -/
def push (s : Store α) (o : Observation α) (nonempty : 1 ≤ o.x.length)
    (admitted : ∀ w, s.width = some w → w.admits o.x.length = true) : Store α where
  width := some (.whole o.x.length)
  log := s.log ++ [o]
  cache := none
  built := s.built
  uniform := by
    intro p hp
    rcases List.mem_append.1 hp with hp | hp
    · obtain ⟨h, hw⟩ := s.uniform p hp
      have := admitted _ hw
      simp only [Width.admits, beq_iff_eq] at this
      exact ⟨h, by rw [this]⟩
    · rw [List.mem_singleton.1 hp]
      exact ⟨nonempty, rfl⟩
  coherent := by simp

@[simp] theorem log_empty (width : Option Width) : (empty width : Store α).log = [] := rfl

@[simp] theorem log_push (s : Store α) (o : Observation α) (nonempty : 1 ≤ o.x.length)
    (admitted : ∀ w, s.width = some w → w.admits o.x.length = true) :
    (s.push o nonempty admitted).log = s.log ++ [o] := rfl

/-- Appends an observation. Its parts come as far as they could be converted, and are looked at in
order: the predictor, which must be a vector with an entry and agree with the width; the response;
the weight. -/
def add (s : Store α) (x : Except Fault (Grid α)) (y weight : Except Fault α) :
    Except Fault (Observation α × Store α) := do
  let x ← x
  if h : x.shape.length = 1 ∧ 1 ≤ x.entries.length then
    if hw : ∀ w, s.width = some w → w.admits x.entries.length = true then
      let y ← y
      let weight ← weight
      let o : Observation α := ⟨x.entries, y, weight⟩
      return (o, s.push o h.2 hw)
    else
      let expected := (s.width.map fun w => w.toEntry.shown).getD ""
      throw (.wrongLength x.entries.length expected)
  else throw (.notAVector x.shape)

/-- Appends observations until one fails. -/
def addAll (s : Store α) : List (Grid α × α × α) → Except Fault Unit × Store α
  | [] => (.ok (), s)
  | (x, y, weight) :: rest =>
    match s.add (.ok x) (.ok y) (.ok weight) with
    | .ok (_, s) => s.addAll rest
    | .error e => (.error e, s)

/-- The rows of three arrays that `Store.extend` appends, if there are equally many of them. Without
weights every row has the default one. -/
def rowsOf [One α] (x y : Except Fault (Grid α)) (weights : Option (Except Fault (Grid α))) :
    Except Fault (List (Grid α × α × α)) := do
  let rows := (← x).atLeastRows.rows
  let ys := (← y).entries
  let ws ← match weights with
    | none => pure (List.replicate ys.length Observation.defaultWeight)
    | some weights => (·.entries) <$> weights
  if rows.length = ys.length ∧ ys.length = ws.length then
    return rows.zip (ys.zip ws)
  else throw (.unevenCounts rows.length ys.length ws.length)

/-- Appends an observation for each row of an array of predictors. The counts are compared first;
then the rows go in one by one. -/
def extend [One α] (s : Store α) (x y : Except Fault (Grid α))
    (weights : Option (Except Fault (Grid α))) : Except Fault Unit × Store α :=
  match rowsOf x y weights with
  | .ok rows => s.addAll rows
  | .error e => (.error e, s)

/-- The arrays of the log, and the store that keeps them. -/
def read (s : Store α) : Except Fault (Views α × Store α) :=
  match s.cache with
  | some v => .ok (v, s)
  | none =>
    match h : Views.columnsOf s.width s.log with
    | .error e => .error e
    | .ok n =>
      let v := Views.stack s.built n s.log
      .ok (v, { s with
        cache := some v
        built := s.built + 1
        coherent := by
          intro w hw
          obtain rfl := Option.some.inj hw
          exact ⟨Nat.lt_succ_self _, h, rfl⟩ })

/-- The arrays of the log. -/
def views (s : Store α) : Except Fault (Views α) := (·.1) <$> s.read

/-- The observation at an index; a negative index counts from the end. -/
def nth (s : Store α) (i : Int) : Except Fault (Observation α) :=
  let j := if i < 0 then i + s.size else i
  if j < 0 then throw .noSuchIndex
  else match s.log[j.toNat]? with
    | some o => .ok o
    | none => throw .noSuchIndex

/-- The store in short: how many observations it holds, and the length of their predictors. -/
def summary (s : Store α) : String :=
  let width := ((s.width.map Width.toEntry).getD .nothing).shown
  "ObservationStore(n=" ++ toString s.size ++ ", n_features=" ++ width ++ ")"

end Store

end BalanceFit
