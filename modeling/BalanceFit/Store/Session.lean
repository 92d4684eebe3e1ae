import BalanceFit.Store

/-!
# Sessions with a store

A session is a store and the predictors array that its user holds on to. Requests change the store
only where they append to it; all arrays that it hands out are for reading.

## Main definitions

* `Store.Request`, `Store.Reply` : what a user can ask, and the answers
* `Store.Session.run` : the effect of one request
-/

namespace BalanceFit.Store

variable {α : Type}

/-- An array that a store hands out. -/
inductive Target where
  | x
  | y
  | weight
  /-- The predictor of the observation at an index. -/
  | predictor (i : Int)

/-- What a user can ask of a store. -/
inductive Request (α : Type) where
  | add (x : Except Fault (Grid α)) (y weight : Except Fault α)
  /-- Append an observation, and then write a value over the array that its predictor was given in.
  -/
  | addAndSpoil (x : Except Fault (Grid α)) (y weight : Except Fault α)
      (value : Except Fault (Grid α))
  | extend (x y : Except Fault (Grid α)) (weights : Option (Except Fault (Grid α)))
  /-- Read the stacked arrays. -/
  | views
  | nth (i : Int)
  /-- Go through all observations. -/
  | all
  /-- Hold on to the stacked predictors. -/
  | hold
  /-- Look at the predictors that are held. -/
  | held
  /-- Write into an array. -/
  | write (target : Target)
  /-- Set a field of an observation. -/
  | set (i : Int)
  | summary

/-- What a store answers. -/
inductive Reply (α : Type) where
  | nothing
  | observation (o : Observation α)
  | views (v : Views α)
  | all (log : List (Observation α))
  | predictors (x : List (List α))
  /-- Predictors that are held, and whether they are still those of the store. -/
  | held (x : List (List α)) (current : Bool)
  | summary (text : String)

/-- A store and the arrays that its user holds. -/
structure Session (α : Type) where
  store : Store α
  hold : Option (Views α)

namespace Session

/-- The session that begins with a store. -/
def start (s : Store α) : Session α := ⟨s, none⟩

/-- The session with another store. -/
def withStore (t : Session α) (s : Store α) : Session α := { t with store := s }

/-- A request that needs the stacked arrays, and goes on in the session in which they have been
read. -/
def reading (t : Session α) (f : Views α → Session α → Except Fault (Reply α) × Session α) :
    Except Fault (Reply α) × Session α :=
  match t.store.read with
  | .error e => (.error e, t)
  | .ok (v, s) => f v (t.withStore s)

/-- Carries out a request. -/
def run [One α] (t : Session α) : Request α → Except Fault (Reply α) × Session α
  | .add x y weight =>
    match t.store.add x y weight with
    | .ok (o, s) => (.ok (.observation o), t.withStore s)
    | .error e => (.error e, t)
  | .addAndSpoil x y weight value =>
    match t.store.add x y weight with
    | .ok (o, s) =>
      match value.map (Grid.spread? [o.x.length]) with
      | .ok (some _) => (.ok (.observation o), t.withStore s)
      | .ok none => (.error .shapeMismatch, t.withStore s)
      | .error e => (.error e, t.withStore s)
    | .error e => (.error e, t)
  | .extend x y weights =>
    let (r, s) := t.store.extend x y weights
    ((fun _ => .nothing) <$> r, t.withStore s)
  | .views => t.reading fun v t => (.ok (.views v), t)
  | .nth i => (.observation <$> t.store.nth i, t)
  | .all => (.ok (.all t.store.log), t)
  | .hold => t.reading fun v t => (.ok (.predictors v.x), { t with hold := some v })
  | .held =>
    match t.hold with
    | none => (.error .noSuchEntry, t)
    | some h => t.reading fun v t => (.ok (.held h.x (h.stamp == v.stamp)), t)
  | .write (.predictor i) => (t.store.nth i >>= fun _ => .error .readOnly, t)
  | .write _ => t.reading fun _ t => (.error .readOnly, t)
  | .set i => (t.store.nth i >>= fun _ => .error .frozen, t)
  | .summary => (.ok (.summary t.store.summary), t)

end Session

end BalanceFit.Store
