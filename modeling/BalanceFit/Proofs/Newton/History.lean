import Mathlib.Algebra.Order.Field.Rat
import Mathlib.Data.List.Chain
import Mathlib.Data.List.Forall2
import BalanceFit.Proofs.Newton.Budget

/-!
# What an iteration records

An iteration that keeps its history records three things of every iterate that it evaluates: the
iterate itself in its history, a call of the observer, and a count. The history gets an iterate as
soon as a step leads there, the other two only when it is evaluated. So before an evaluation the
history is one iterate ahead, and it stays ahead if the iteration ends after a step.

## Main definitions

* `Newton.Keeps` : a place with the iterates that led there
* `Newton.StepsTo` : an iterate and the one that the Newton step leads to
* `Newton.Seen` : the iterates that were evaluated and shown
* `Newton.Recorded` : what is known of the records of an iteration when it ends

## Main statements

* `Newton.Trails.round` : what one round does to the records
* `Newton.exists_shorter` : under a smaller bound the records begin in the same way
* `Newton.recorded_of_newton` : the records of an iteration
-/

namespace BalanceFit.Newton

open Run

variable {α σ : Type} [Scalar α] {n : Nat}

/-- These are the iterates that led to the place where the iteration stands. -/
structure Keeps (earlier : List (Vec α n)) (p : Progress α n) : Prop where
  evaluations : p.evaluations = earlier.length
  history : p.history = some (earlier ++ [p.beta]).reverse

theorem keeps_start (start : Vec α n) : Keeps [] (.start true start) := ⟨rfl, rfl⟩

/-- After each evaluation there is one iterate more, whatever comes next. -/
theorem Keeps.stepped {earlier : List (Vec α n)} {p : Progress α n} (keeps : Keeps earlier p)
    (absBalance : α) (delta : Vec α n) :
    Keeps (earlier ++ [p.beta]) ((p.evaluated p.beta absBalance).stepped delta) := by
  obtain ⟨evaluations, history⟩ := keeps
  constructor
  · change p.evaluations + 1 = _
    rw [evaluations, List.length_append]
    rfl
  · simp only [Progress.stepped, Progress.evaluated, history, Option.map_some,
      List.reverse_concat]

section Definitions

variable (model : Model (Act σ) α) (store : Store α) (o : Observer σ α) (config : Config α)
  (f : Vec α n → Except Fault (System α n)) (start : Vec α n) (u : σ)

/-- The Newton step leads from one iterate to the other: it solves the system at the first one, with
the ridge and scaled, and the other one is the first one less the step. -/
def StepsTo (b b' : Vec α n) : Prop :=
  ∃ t c delta, f b = .ok t ∧
    Scaling.ofJacobian? config.jacobianTol (t.regularize config.epsilon b).jacobian = .ok (some c) ∧
    (c.apply (t.regularize config.epsilon b)).newtonStep = .ok ⟨some delta, none⟩ ∧
    b' = Vec.zipWith (· - ·) b delta

/-- What the observer is shown at an iterate: the iterate, and the balance there with the ridge. -/
def Shows (b : Vec α n) (v : Visit α) : Prop :=
  ∃ t, f b = .ok t ∧ v = ⟨b.toList, (t.regularize config.epsilon b).balance.toList⟩

/-- From the beginning to this world exactly these iterates were evaluated, and shown to the
observer. The last balance that was shown has this total. -/
structure Seen (seen : List (Vec α n)) (absBalance : α) (w : World σ α) : Prop where
  evaluations : ∀ log, Logs model store (some o) n log →
    log w.user = log u ++ seen.map Vec.toList
  calls : List.Forall₂ (Shows config f) seen w.visits.toList
  total : ∀ v ∈ w.visits.back?, pairwiseSum (v.balance.map Scalar.abs) = absBalance

/-- Where an iteration stands, and in which world, after these iterates. -/
structure Trails (earlier : List (Vec α n)) (p : Progress α n) (w : World σ α) : Prop where
  keeps : Keeps earlier p
  seen : Seen model store o config f u earlier p.absBalance w
  first : (earlier ++ [p.beta]).head? = some start
  steps : (earlier ++ [p.beta]).IsChain (StepsTo config f)

/-- Whether an iteration ended at the iterate that it evaluated last: it diverged there, or the
balance there is within its tolerance. Otherwise it did not evaluate the last iterate. -/
def endsInPlace {V : Type} (r : FitResult V α) : Bool :=
  match r.outcome with
  | .converged => Scalar.le r.absBalance config.balanceTol
  | .diverged _ => 1 ≤ r.iterations
  | _ => false

/-- What is known of the records of an iteration when it ends: `past` is its history. -/
structure Recorded (past : List (Vec α n)) (r : FitResult (Vec α n) α) (w : World σ α) : Prop where
  /-- The model was evaluated as often as the result counts, at the iterates in their order. -/
  evaluations : ∀ log, Logs model store (some o) n log →
    log w.user = log u ++ (past.take r.iterations).map Vec.toList
  /-- The observer was called as often, -/
  calls : w.visits.size = r.iterations
  /-- and shown the iterate and its balance each time. -/
  call : ∀ i < r.iterations, ∃ b v,
    past[i]? = some b ∧ w.visits[i]? = some v ∧ Shows config f b v
  /-- The total of the last balance that was shown is in the result. -/
  total : 1 ≤ r.iterations → ∃ v, w.visits[r.iterations - 1]? = some v ∧
    pairwiseSum (v.balance.map Scalar.abs) = r.absBalance
  /-- The history begins with the starting coefficients, -/
  first : past.head? = some start
  /-- and ends with the coefficients in the result. -/
  last : past.getLast? = some r.beta
  /-- There are as many iterates as evaluations, or one more. -/
  length : past.length = r.iterations + if endsInPlace config r then 0 else 1
  /-- Each iterate after the first is the one before it less the Newton step there. -/
  steps : past.IsChain (StepsTo config f)

end Definitions

variable {model : Model (Act σ) α} {store : Store α} {o : Observer σ α} {config : Config α}
  {f : Vec α n → Except Fault (System α n)} {start : Vec α n} {u : σ}
  {earlier past seen : List (Vec α n)} {p q : Progress α n} {r : FitResult (Vec α n) α}
  {turn : Turn α n} {w w' w'' : World σ α} {absBalance : α} {k : Nat}

/-- Seen iterates stay what they were when lines are printed. -/
theorem Seen.upToLines (before : Seen model store o config f u seen absBalance w)
    (printed : UpToLines w w') : Seen model store o config f u seen absBalance w' where
  evaluations log logs := by
    rw [printed.user]
    exact before.evaluations log logs
  calls := by
    rw [printed.visits]
    exact before.calls
  total := by
    rw [printed.visits]
    exact before.total

/-- A visit adds the iterate to those that were seen. -/
theorem Seen.visit (looks : o.LooksOnly) (yields : model.Yields store f)
    (before : Seen model store o config f u seen absBalance w) {call : Nat}
    {b beta : Vec α n} {s : System α n}
    (visited : Returns (visit model store config (some o) call b) w (beta, s) w') :
    ∃ t, f b = .ok t ∧ beta = b ∧ s = t.regularize config.epsilon b ∧
      Seen model store o config f u (seen ++ [b]) s.balance.absTotal w' := by
  obtain ⟨t, u', visited⟩ := exists_visited visited
  have yielded : f b = .ok t := by
    rw [← yields b w.user, visited.ran]
  have pushed := visited.call rfl
  have looks : ∀ o' ∈ some o, o'.LooksOnly := by
    intro o' member
    cases member
    exact looks
  obtain ⟨rfl, rfl⟩ := visited.looked looks
  refine ⟨t, yielded, rfl, rfl, fun log logs => ?_, ?_, fun v last => ?_⟩
  · rw [logs.visited visited, before.evaluations log logs, List.append_assoc, List.map_append]
    rfl
  · rw [pushed, Array.toList_push]
    exact List.rel_append before.calls (.cons ⟨t, yielded, rfl⟩ .nil)
  · rw [pushed, Array.back?_push] at last
    obtain rfl := Option.some.inj last
    rfl

/-- The step that an assessment asks for leads to the next iterate. -/
theorem stepsTo_of_assess {t : System α n} {b delta : Vec α n} (yielded : f b = .ok t)
    (assessed : assess config (t.regularize config.epsilon b) = .ok (.step delta)) :
    StepsTo config f b (Vec.zipWith (· - ·) b delta) := by
  cases assessed_of_assess assessed with
  | solved _ _ scaled solved => exact ⟨t, _, delta, yielded, scaled, solved, rfl⟩

theorem trails_start (start : Vec α n) (u : σ) :
    Trails model store o config f start u [] (.start true start) ⟨u, #[], #[]⟩ where
  keeps := keeps_start start
  seen := ⟨fun _ _ => (List.append_nil _).symm, .nil, nofun⟩
  first := rfl
  steps := .singleton start

/-- A stop ends an iteration in place, -/
theorem endsInPlace_of_stop {s : System α n} {outcome : Outcome} {beta : Vec α n}
    (assessed : assess config s = .ok (.stop outcome)) :
    endsInPlace config ((p.evaluated beta s.balance.absTotal).result outcome) = true := by
  have counted : decide (1 ≤ p.evaluations + 1) = true := decide_eq_true (Nat.le_add_left 1 _)
  cases assessed_of_assess assessed with
  | broken => exact counted
  | balanced _ within => exact within
  | degenerate => exact counted
  | unsolved => exact counted

/-- and a step does not. -/
theorem endsInPlace_of_step {s : System α n} {beta delta : Vec α n}
    (assessed : assess config s = .ok (.step delta)) :
    endsInPlace config (((p.evaluated beta s.balance.absTotal).stepped delta).result .converged) =
      false := by
  cases assessed_of_assess assessed with
  | solved _ above => exact Bool.eq_false_iff.2 above

/-- What was seen is recorded in a result that counts it. -/
theorem Seen.recorded (here : Seen model store o config f u (past.take r.iterations) r.absBalance w)
    (first : past.head? = some start) (last : past.getLast? = some r.beta)
    (length : past.length = r.iterations + if endsInPlace config r then 0 else 1)
    (steps : past.IsChain (StepsTo config f)) :
    Recorded model store o config f start u past r w := by
  have enough : r.iterations ≤ past.length := by
    rw [length]
    exact Nat.le_add_right _ _
  have calls : w.visits.size = r.iterations := by
    rw [← Array.length_toList, ← here.calls.length_eq, List.length_take, Nat.min_eq_left enough]
  refine ⟨here.evaluations, calls, fun i within => ?_, fun one => ?_, first, last, length, steps⟩
  · have shown : i < w.visits.size := by rwa [calls]
    have taken : i < (past.take r.iterations).length := by
      rwa [List.length_take, Nat.min_eq_left enough]
    have call := here.calls.get taken shown
    rw [List.get_eq_getElem, List.getElem_take] at call
    exact ⟨_, _, List.getElem?_eq_getElem _, Array.getElem?_eq_getElem shown, call⟩
  · have final : w.visits[r.iterations - 1]? = w.visits.back? := by
      rw [Array.back?_eq_getElem?, calls]
    obtain ⟨v, found⟩ : ∃ v, w.visits.back? = some v := by
      rw [← final, Array.getElem?_eq_getElem (by omega)]
      exact ⟨_, rfl⟩
    exact ⟨v, final.trans found, here.total v found⟩

/-- An iteration that ends where it stands, without an evaluation there, has its records in order.
-/
theorem Trails.recorded (here : Trails model store o config f start u earlier p w)
    {outcome : Outcome} (onward : endsInPlace config (p.result outcome) = false) :
    (p.result outcome).history = some (earlier ++ [p.beta]) ∧
      Recorded model store o config f start u (earlier ++ [p.beta]) (p.result outcome) w := by
  obtain ⟨⟨number, history⟩, seen, first, steps⟩ := here
  have taken : (earlier ++ [p.beta]).take (p.result outcome).iterations = earlier := by
    rw [Progress.result, number, List.take_left]
  constructor
  · rw [Progress.result, history, Option.map_some, List.reverse_reverse]
  · refine Seen.recorded ?_ first List.getLast?_concat ?_ steps
    · rw [taken]
      exact seen
    · rw [onward, List.length_append, Progress.result, number]
      rfl

/-- After a step the iteration stands at the next iterate. -/
theorem Trails.stepped (here : Trails model store o config f start u earlier p w) {delta : Vec α n}
    (seen : Seen model store o config f u (earlier ++ [p.beta]) absBalance w')
    (stepped : StepsTo config f p.beta (Vec.zipWith (· - ·) p.beta delta)) :
    Trails model store o config f start u (earlier ++ [p.beta])
      ((p.evaluated p.beta absBalance).stepped delta) w' where
  keeps := here.keeps.stepped absBalance delta
  seen := seen
  first := by
    rw [List.head?_append_of_ne_nil _ (List.append_ne_nil_of_right_ne_nil _ (List.cons_ne_nil _ _))]
    exact here.first
  steps := by
    rw [List.append_assoc]
    exact List.isChain_append_cons_cons.2 ⟨here.steps, stepped, .singleton _⟩

/-- What one round does to the records: it adds an evaluation and a call, and an iterate if it takes
a step. -/
theorem Trails.round (looks : o.LooksOnly) (yields : model.Yields store f)
    (here : Trails model store o config f start u earlier p w)
    (returned : Returns (round model store config (some o) p) w turn w') :
    Sum.elim (fun q => ∃ earlier, Trails model store o config f start u earlier q w')
      (fun r => ∃ past, r.history = some past ∧
        Recorded model store o config f start u past r w') turn := by
  obtain ⟨-, beta, s, w₁, visited, printed, followed⟩ := exists_visit_of_round returned
  obtain ⟨t, yielded, rfl, rfl, seen⟩ := here.seen.visit looks yields visited
  have seen := seen.upToLines printed
  cases followed with
  | @stopped outcome assessed =>
    -- The iterate was evaluated, and it is the last one of the history.
    obtain ⟨⟨number, history⟩, -, first, steps⟩ := here
    have counted : (earlier ++ [p.beta]).length = p.evaluations + 1 := by
      rw [List.length_append, number]
      rfl
    refine ⟨earlier ++ [p.beta], ?_, Seen.recorded ?_ first List.getLast?_concat ?_ steps⟩
    · simp only [Progress.result, Progress.evaluated, history, Option.map_some,
        List.reverse_reverse]
    · change Seen model store o config f u ((earlier ++ [p.beta]).take (p.evaluations + 1)) _ w'
      rw [← counted, List.take_length]
      exact seen
    · rw [endsInPlace_of_stop assessed]
      exact counted
  | shortStep assessed short =>
    have next := here.stepped seen (stepsTo_of_assess yielded assessed)
    exact ⟨_, next.recorded (endsInPlace_of_step assessed)⟩
  | stepped assessed long => exact ⟨_, here.stepped seen (stepsTo_of_assess yielded assessed)⟩

/-- The records of an iteration that returns are in order. -/
theorem exists_recorded (looks : o.LooksOnly) (yields : model.Yields store f)
    (kept : config.history = true)
    (returned : Returns (newton model store config (some o) start) ⟨u, #[], #[]⟩ r w) :
    ∃ past, r.history = some past ∧ Recorded model store o config f start u past r w := by
  have began : Trails model store o config f start u [] (.start true start) ⟨u, #[], #[]⟩ :=
    trails_start start u
  rw [newton, kept] at returned
  split at returned
  · obtain ⟨turn, rounded, rfl⟩ := returns_iterate_iff.1 returned
    have ended := rounds_induction
      (I := fun q w => ∃ earlier, Trails model store o config f start u earlier q w)
      (F := fun r w => ∃ past, r.history = some past ∧
        Recorded model store o config f start u past r w)
      (fun here rounded => by
        obtain ⟨earlier, here⟩ := here
        exact here.round looks yields rounded) ⟨[], began⟩ rounded
    cases turn with
    | inl q =>
      obtain ⟨earlier, here⟩ := ended
      exact ⟨_, here.recorded rfl⟩
    | inr r => exact ended
  · obtain ⟨rfl, rfl⟩ := returns_pure_iff.1 returned
    exact ⟨_, began.recorded rfl⟩

/-- Under a smaller bound an iteration records what it has recorded by then: later iterations leave
that as it is. -/
theorem exists_shorter {observer : Option (Observer σ α)} {maxIter : Nat}
    (le : maxIter ≤ config.maxIter)
    (returned : Returns (newton model store config observer start) w r w') :
    ∃ r₁ w₁, Returns (newton model store { config with maxIter := maxIter } observer start) w r₁ w₁ ∧
      r₁.iterations = min maxIter r.iterations ∧
        (∀ past₁ ∈ r₁.history, ∃ past ∈ r.history, past₁ <+: past) ∧
          w₁.visits.toList <+: w'.visits.toList := by
  by_cases finite : start.isFinite = true
  case neg =>
    rw [newton, if_neg finite] at returned
    obtain ⟨rfl, rfl⟩ := returns_pure_iff.1 returned
    refine ⟨_, _, ?_, (Nat.min_zero _).symm, fun past member => ⟨past, member, List.prefix_refl _⟩,
      List.prefix_refl _⟩
    rw [newton, if_neg finite]
    exact returns_pure_iff.2 ⟨rfl, rfl⟩
  case pos =>
    obtain ⟨d, bound⟩ := Nat.exists_eq_add_of_le le
    rw [newton, if_pos finite, bound, iterate_add, returns_bind_iff] at returned
    obtain ⟨turn, w₁, before, rest⟩ := returned
    rw [newton_withMaxIter maxIter finite]
    have shorter := returns_iterate_iff.2 ⟨turn, before, rfl⟩
    refine ⟨turn.result, w₁, shorter, ?_⟩
    cases turn with
    | inl q =>
      obtain ⟨last, rounded, rfl⟩ := returns_iterate_iff.1 rest
      have extended := extends_of_rounds rounded
      have number : q.evaluations = 0 + maxIter := (evaluations_of_rounds before).1
      have fewer : maxIter ≤ last.result.iterations := by
        rw [← Nat.zero_add maxIter, ← number]
        exact extended.iterations
      rw [Nat.min_eq_left fewer]
      exact ⟨number.trans (Nat.zero_add _), extended.prefix_history, extended.calls⟩
    | inr ended =>
      obtain ⟨rfl, rfl⟩ := returns_pure_iff.1 rest
      have few : ended.iterations ≤ 0 + maxIter := (iterations_of_iterate shorter).1
      rw [Nat.zero_add] at few
      rw [Nat.min_eq_right few]
      exact ⟨rfl, fun past member => ⟨past, member, List.prefix_refl _⟩, List.prefix_refl _⟩

/-- **The records of an iteration.** If an iteration that keeps its history returns, and its observer
only looks, then its records are in order. Later iterations have left the earlier records as they
were: under a smaller bound, however small, there are fewer of them, and they are the same. The
starting coefficients are a value, as all arguments are, so they stay as they were given: the
history begins with them. -/
theorem recorded_of_newton (looks : o.LooksOnly) (yields : model.Yields store f)
    (kept : config.history = true)
    (returned : Run.start u (newton model store config (some o) start) = (.ok r, w)) :
    ∃ past, r.history = some past ∧ Recorded model store o config f start u past r w ∧
      ∀ maxIter ≤ config.maxIter, ∃ r₁ w₁ past₁,
        Run.start u (newton model store { config with maxIter := maxIter } (some o) start) =
            (.ok r₁, w₁) ∧
          r₁.iterations = min maxIter r.iterations ∧ r₁.history = some past₁ ∧ past₁ <+: past ∧
            w₁.visits.toList <+: w.visits.toList := by
  have returned : Returns (newton model store config (some o) start) ⟨u, #[], #[]⟩ r w := returned
  obtain ⟨past, history, recorded⟩ := exists_recorded looks yields kept returned
  refine ⟨past, history, recorded, fun maxIter le => ?_⟩
  obtain ⟨r₁, w₁, shorter, fewer, histories, calls⟩ := exists_shorter le returned
  have kept₁ : ({ config with maxIter := maxIter } : Config α).history = true := kept
  obtain ⟨past₁, history₁, -⟩ := exists_recorded looks yields kept₁ shorter
  obtain ⟨past', same, sub⟩ := histories past₁ history₁
  obtain rfl : past = past' := Option.some.inj (history.symm.trans same)
  exact ⟨r₁, w₁, past₁, shorter, fewer, history₁, sub, calls⟩

/-- The model of square roots of two that keeps a log of where it is evaluated. -/
def loggedModel : Model (Act (List (List ℚ))) ℚ where
  name := "LoggedSquareRoots"
  dim? := none
  link? := none
  evaluate? := some fun n _ beta _ => do
    modify (· ++ [beta.entries])
    return squareRoots (Vec.ofListPadded n beta.entries)

/-- The observer that looks, and does nothing else. -/
def watching : Observer (List (List ℚ)) ℚ where
  observe _ _ beta balance := return (beta, balance)

/-- From one there are four evaluations, each at the iterate that the last step led to. The first
step is the one from one to `3 / 2`. -/
theorem recorded_of_newton_squareRoots :
    let config : Config ℚ := ⟨0, 1 / 1000, 0, 0, 9, .level 0, true⟩
    let one : Vec ℚ 1 := .replicate 1 1
    let past : List (Vec ℚ 1) :=
      [one, .replicate 1 (3 / 2), .replicate 1 (17 / 12), .replicate 1 (577 / 408)]
    let run := Run.start [] (newton loggedModel (.empty none) config (some watching) one)
    run.1 = .ok ⟨.converged, .replicate 1 (577 / 408), 4, 1 / 166464, some past⟩ ∧
      run.2.user = past.map Vec.toList ∧ run.2.visits.size = 4 ∧
        StepsTo config (fun b => .ok (squareRoots b)) one (.replicate 1 (3 / 2)) := by
  intro config one past run
  have result : run.1 = .ok ⟨.converged, .replicate 1 (577 / 408), 4, 1 / 166464, some past⟩ := by
    decide +kernel
  have looks : watching.LooksOnly := by
    intro n call shape beta balance u u' r returned
    cases returned
    rfl
  have yields : loggedModel.Yields (.empty none) fun b : Vec ℚ 1 => .ok (squareRoots b) := by
    intro b u
    change Except.ok (squareRoots (Vec.ofListPadded 1 b.toList)) = _
    rw [Vec.ofListPadded_toList]
  have logs : Logs loggedModel (.empty none) (some watching) 1 id := by
    constructor
    · intro b u u' s ran
      cases ran
      rfl
    · intro o member call b balance u u' r ran
      cases member
      cases ran
      rfl
  obtain ⟨past', history, recorded, -⟩ :=
    recorded_of_newton looks yields rfl (Prod.ext result rfl)
  obtain rfl := Option.some.inj history
  exact ⟨result, recorded.evaluations id logs, recorded.calls,
    (List.isChain_cons_cons.1 recorded.steps).1⟩

end BalanceFit.Newton
