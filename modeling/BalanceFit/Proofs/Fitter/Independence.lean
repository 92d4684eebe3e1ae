import Mathlib.Data.List.Induction
import BalanceFit.Fitter.Session
import BalanceFit.Model.GeneralizedLinear
import BalanceFit.Proofs.Newton.Visit
import BalanceFit.Proofs.Fitter.WarmStart
import BalanceFit.Proofs.Run.Lines
import BalanceFit.Proofs.Scalar.Ranged
import BalanceFit.Proofs.Store.Refinement

/-!
# Every solve of a session is independent

A session with a fitter goes through commands, some of which fail, and its user may at any time ask
the store of observations for its arrays or append to it. With pure models none of this is seen by a
solve, apart from the model, the parameters and the log as they are then: the result or the fault,
the lines that are printed and what an observer is shown are those of a fresh fitter that holds the
same log. Only a request that appends an observation changes the log.

## Main definitions

* `Model.IsPure` : a model that does nothing but compute, from the log of a store
* `Observer.Respects` : an observer that cannot tell some states of the user apart
* `Fitter.Event` : what can happen to a session between two solves
* `Fitter.Event.effect` : what an event does to the ledger of the observations
* `Fitter.holding` : the fresh fitter that holds a log

## Main statements

* `GeneralizedLinear.readsLedger_model` : the generalized linear models are pure
* `Fitter.solve_congr` : with a pure model, a solve sees nothing of a store but its ledger
* `Fitter.Session.ledger_after` : the ledger after some events
* `Fitter.Session.solve_after` : every solve is that of a fresh fitter
-/

namespace BalanceFit

variable {α σ : Type}

/-- Of a store the model reads the ledger alone. -/
def Model.ReadsLedger (m : Model (Except Fault) α) : Prop :=
  ∀ f ∈ m.evaluate?, ∀ (n : Nat) (s s' : Store α) (beta : Grid α) (buffers : System α n),
    s.ledger = s'.ledger → f n s beta buffers = f n s' beta buffers

/-- The model does nothing but compute, from the ledger of a store. -/
def Model.IsPure (model : Model (Act σ) α) : Prop :=
  ∃ m : Model (Except Fault) α, m.ReadsLedger ∧ model = m.lift

/-- The observer cannot tell related states of the user apart, and leaves related states. -/
def Observer.Respects (R : σ → σ → Prop) (o : Observer σ α) : Prop :=
  ∀ {n : Nat} (call : Nat) (shape : List Nat) (beta balance : Vec α n),
    Act.Related R (o.observe call shape beta balance) (o.observe call shape beta balance)

/-- Stores with one ledger give stackings of one log, or the same fault. -/
theorem Store.views_congr {s s' : Store α} (same : s.ledger = s'.ledger) :
    (∃ stamp stamp' p, s.views = .ok (.stack stamp p s.log) ∧
        s'.views = .ok (.stack stamp' p s.log)) ∨
      ∃ e, s.views = .error e ∧ s'.views = .error e := by
  have log : s.log = s'.log := congrArg Ledger.log same
  cases columns : s.ledger.columns? with
  | some p =>
    obtain ⟨stamp, stacked⟩ := views_of_columns? columns
    obtain ⟨stamp', stacked'⟩ := views_of_columns? (same ▸ columns)
    exact .inl ⟨stamp, stamp', p, stacked, log ▸ stacked'⟩
  | none =>
    obtain ⟨e, unknown⟩ := columnsOf_of_not_columns? columns
    have width : s.width = s'.width := congrArg Ledger.width same
    have unknown' := unknown
    rw [width, log] at unknown'
    exact .inr ⟨e, by rw [views, read_of_columnsOf unknown]; rfl,
      by rw [views, read_of_columnsOf unknown']; rfl⟩

/-- The generalized linear models are pure. -/
theorem GeneralizedLinear.readsLedger_model [Scalar α] [Transcendental α]
    (g : GeneralizedLinear α) : g.model.ReadsLedger := by
  intro f member n s s' beta buffers same
  obtain rfl := Option.some.inj member
  change g.evaluate n s beta = g.evaluate n s' beta
  rw [evaluate, evaluate]
  -- The stamps of the arrays, which tell when they were built, are not looked at.
  rcases Store.views_congr same with ⟨stamp, stamp', p, read, read'⟩ | ⟨e, failed, failed'⟩
  · rw [read, read']
    rfl
  · rw [failed, failed']

namespace Model

variable {m : Model (Except Fault) α}

theorem ReadsLedger.evaluate_eq [Scalar α] (reads : m.ReadsLedger) {s s' : Store α}
    (same : s.ledger = s'.ledger) {n : Nat} (beta : Grid α) (buffers : System α n) :
    (m.lift : Model (Act σ) α).evaluate s beta buffers = m.lift.evaluate s' beta buffers := by
  rw [evaluate, evaluate, lift]
  cases found : m.evaluate? with
  | none => rfl
  | some f => exact congrArg (fun x => ExceptT.mk (pure x)) (reads f found n s s' beta buffers same)

variable {S : World σ α → World σ α → Prop}

/-- A pure model cannot tell any worlds apart, however they are related. -/
theorem related_evaluate (s : Store α) {n : Nat} (beta : Grid α) (buffers : System α n) :
    Act.Related S (Run.act (m.lift.evaluate s beta buffers))
      (Run.act (m.lift.evaluate s beta buffers)) := by
  rw [evaluate, lift]
  cases m.evaluate? <;> exact Act.related_result _

theorem related_dim (o : Observation α) :
    Act.Related S (Run.act (m.lift.dim o)) (Run.act (m.lift.dim o)) := by
  rw [dim, lift]
  cases m.dim? <;> exact Act.related_result _

theorem related_link (y : α) :
    Act.Related S (Run.act (m.lift.link y)) (Run.act (m.lift.link y)) := by
  rw [link, lift]
  cases m.link? <;> exact Act.related_result _

end Model

namespace Newton

open Act Run

/-- A visit with a pure model cannot tell states apart that the observer cannot tell apart. -/
theorem related_visit [Scalar α] {R : σ → σ → Prop} {m : Model (Except Fault) α} {store : Store α}
    {config : Config α} {observer : Option (Observer σ α)} (respects : ∀ o ∈ observer, o.Respects R)
    {n : Nat} (call : Nat) (b : Vec α n) :
    Related (SameTrace R) (visit m.lift store config observer call b)
      (visit m.lift store config observer call b) := by
  refine (Model.related_evaluate store _ _).bind fun s => ?_
  cases observer with
  | none => exact related_pure _
  | some o =>
    exact (related_note _).bind fun _ =>
      (related_act (respects o rfl call [n] b _)).bind fun _ => related_pure _

end Newton

namespace Fitter

section Solve

variable [Scalar α] [LeastSquares α] {f f' : Fitter σ α} {R : σ → σ → Prop}

/-- The warm start sees nothing of a store but its ledger. -/
theorem warmStart_congr (model : f.model = f'.model) (config : f.config = f'.config)
    (ledger : f.store.ledger = f'.store.ledger) : f.warmStart = f'.warmStart := by
  have log : f.store.log = f'.store.log := congrArg Store.Ledger.log ledger
  have width : f.store.width = f'.store.width := congrArg Store.Ledger.width ledger
  rw [warmStart, warmStart, model, config, log, width]

/-- With a pure model neither does a solve. -/
theorem solve_congr (pure : f.model.IsPure) (model : f.model = f'.model)
    (config : f.config = f'.config) (ledger : f.store.ledger = f'.store.ledger)
    (observer : Option (Observer σ α)) : f.solve observer = f'.solve observer := by
  obtain ⟨m, reads, lifted⟩ := pure
  have size : f.store.size = f'.store.size :=
    congrArg List.length (congrArg Store.Ledger.log ledger)
  have iterations {n : Nat} (start : Vec α n) :
      newton f.model f.store f.config observer start =
        newton f'.model f'.store f'.config observer start := by
    rw [← model, ← config, lifted]
    exact Newton.newton_eq_of_evaluate (fun b => reads.evaluate_eq ledger _ _) start
  rw [solve, solve, warmStart_congr model config ledger, size, config]
  simp only [← config, iterations]

open Act Run

/-- Warm starts of one pure model over one store are related, in whatever sense, if what they print
is. -/
theorem related_warmStart_of {S : World σ α → World σ α → Prop} {m : Model (Except Fault) α}
    (lifted : f.model = m.lift) (lifted' : f'.model = m.lift) (store : f.store = f'.store)
    (prints : ∀ line : Line α, line.level = 2 →
      Related S (Run.printFrom 2 f.config.verbosity line : Run σ α Unit)
        (Run.printFrom 2 f'.config.verbosity line)) :
    Related S f.warmStart f'.warmStart := by
  rw [warmStart, warmStart, lifted, lifted', ← store]
  cases f.store.log with
  | nil => exact related_result _
  | cons first rest =>
    have round (s : Store α) (o : Observation α) :
        Related S (addLinked m.lift s o : Run σ α (Store α)) (addLinked m.lift s o) :=
      (Model.related_link o.y).bind fun _ => (related_result _).bind fun _ => related_pure _
    refine (Model.related_dim first).bind fun dim => ?_
    refine (Related.foldlM round _ _).bind fun linked => (related_result _).bind fun beta => ?_
    refine (prints (.warmStart beta) rfl).bind fun _ => ?_
    split
    · exact related_pure beta
    · exact (prints (.resize beta.length dim) rfl).bind fun _ => related_result _

/-- A warm start with a pure model cannot tell any states of the user apart. -/
theorem related_warmStart (pure : f.model.IsPure) :
    Related (SameTrace R) f.warmStart f.warmStart := by
  obtain ⟨m, -, lifted⟩ := pure
  exact related_warmStart_of lifted lifted rfl fun line _ => related_printFrom 2 _ line

/-- A solve with a pure model cannot tell states apart that the observer cannot tell apart. -/
theorem related_solve (pure : f.model.IsPure) {observer : Option (Observer σ α)}
    (respects : ∀ o ∈ observer, o.Respects R) :
    Related (SameTrace R) (f.solve observer) (f.solve observer) := by
  refine (related_printFrom _ _ _).bind fun _ => (related_warmStart pure).bind fun beta => ?_
  obtain ⟨m, -, lifted⟩ := pure
  rw [lifted]
  refine (related_printFrom _ _ _).bind fun _ => ?_
  refine (Newton.related_newton (Newton.related_visit respects)
    (fun k line => related_printFrom k _ line) _).bind fun r => ?_
  exact (related_printFrom _ _ _).bind fun _ => (related_printFrom _ _ _).bind fun _ =>
    related_pure _

end Solve

section Holding

/-- The fresh fitter to which the observations of a log are added one by one. -/
def holding (model : Model (Act σ) α) (config : Config α) (log : List (Observation α)) :
    Except Fault (Fitter σ α) :=
  log.foldlM (fun f o => f.add (.ok (.ofList o.x)) (.ok o.y) (.ok o.weight))
    ⟨model, config, .empty none⟩

/-- A log whose predictors have one length can be held. The induction goes through the log in order,
with the last observation split off. -/
theorem exists_holding (model : Model (Act σ) α) (config : Config α) {p : Nat}
    {log : List (Observation α)} (uniform : ∀ o ∈ log, 1 ≤ o.x.length ∧ o.x.length = p) :
    ∃ f, holding model config log = .ok f ∧ f.model = model ∧ f.config = config ∧
      f.store.ledger = ⟨if log = [] then none else some (.whole p), log⟩ := by
  induction log using List.reverseRecOn with
  | nil => exact ⟨_, rfl, rfl, rfl, rfl⟩
  | append_singleton log o ih =>
    obtain ⟨f, held, model_eq, config_eq, ledger⟩ :=
      ih fun o' member => uniform o' (List.mem_append_left _ member)
    obtain ⟨nonempty, length⟩ := uniform o (List.mem_append_right _ (List.mem_singleton_self o))
    -- An empty store admits every length, and any other one the length of its observations.
    have agrees : ∀ w, f.store.width = some w → w.admits o.x.length = true := by
      intro w known
      have width : f.store.width = if log = [] then none else some (.whole p) :=
        congrArg Store.Ledger.width ledger
      rw [known] at width
      split at width
      · cases width
      · cases width
        rw [length]
        exact beq_self_eq_true _
    have added : f.add (.ok (.ofList o.x)) (.ok o.y) (.ok o.weight) =
        .ok { f with store := f.store.push o nonempty agrees } := by
      rw [add, Store.add_ok ⟨rfl, nonempty⟩ agrees]
      rfl
    refine ⟨{ f with store := f.store.push o nonempty agrees }, ?_, model_eq, config_eq, ?_⟩
    · rw [holding, List.foldlM_append]
      rw [holding] at held
      rw [held]
      change f.add (.ok (.ofList o.x)) (.ok o.y) (.ok o.weight) >>= pure = _
      rw [added]
      rfl
    · have log_eq : f.store.log = log := congrArg Store.Ledger.log ledger
      have some_left : log ++ [o] ≠ [] :=
        List.append_ne_nil_of_right_ne_nil log (List.cons_ne_nil o [])
      rw [if_neg some_left, ← length, ← log_eq]
      rfl

/-- Every fitter holds what a fresh one can hold, if an empty store has not been told a length. -/
theorem exists_fresh (f : Fitter σ α) (untold : f.store.ledger.Untold) :
    ∃ fresh, holding f.model f.config f.store.log = .ok fresh ∧ fresh.model = f.model ∧
      fresh.config = f.config ∧ fresh.store.ledger = f.store.ledger := by
  cases log : f.store.log with
  | nil =>
    have width : f.store.width = none := untold log
    refine ⟨⟨f.model, f.config, .empty none⟩, rfl, rfl, rfl, ?_⟩
    rw [Store.ledger, Store.ledger, log, width]
    rfl
  | cons first rest =>
    obtain ⟨-, width⟩ := f.store.uniform first (log ▸ List.mem_cons_self)
    have uniform : ∀ o ∈ first :: rest, 1 ≤ o.x.length ∧ o.x.length = first.x.length := by
      intro o member
      obtain ⟨nonempty, same⟩ := f.store.uniform o (log ▸ member)
      rw [width] at same
      have lengths := Width.whole.inj (Option.some.inj same)
      exact ⟨nonempty, by omega⟩
    obtain ⟨fresh, held, model, config, ledger⟩ := exists_holding f.model f.config uniform
    refine ⟨fresh, held, model, config, ?_⟩
    rw [ledger, Store.ledger, log, width]
    rfl

end Holding

/-- What can happen to a session between two solves. -/
inductive Event (σ α : Type) where
  | command (c : Command σ α)
  /-- A request to the store of observations, while its user holds some array. -/
  | request (held : Option (Views α)) (r : Store.Request α)

namespace Event

/-- Every model that a fitter is given is pure. -/
def IsPure : Event σ α → Prop
  | command (.exchange model _) => model.IsPure
  | _ => True

/-- What an event does to the ledger: an observation that can be appended is appended, and nothing
else happens. -/
def effect [One α] (l : Store.Ledger α) : Event σ α → Store.Ledger α
  | command (.add x y weight) => l.pushIf (l.admit? x y weight)
  | command _ => l
  | request _ r => l.after r

/-- Whatever happens, as long as a ledger is empty it does not learn a length. -/
theorem untold_foldl [One α] (events : List (Event σ α)) {l : Store.Ledger α} (untold : l.Untold) :
    (events.foldl effect l).Untold := by
  induction events generalizing l with
  | nil => exact untold
  | cons e events ih =>
    refine ih ?_
    cases e with
    | request held r => exact untold.after r
    | command c =>
      cases c
      case add x y weight => exact untold.pushIf _
      all_goals exact untold

end Event

namespace Session

variable [Scalar α] [LeastSquares α]

/-- The session after an event. -/
def step (t : Session σ α) : Event σ α → Session σ α
  | .command c => (t.run c).2
  | .request held r =>
    let asked := ((⟨t.fitter.store, held⟩ : Store.Session α).run r).2
    { t with fitter := { t.fitter with store := asked.store } }

/-- The session after some events. -/
def after (t : Session σ α) (events : List (Event σ α)) : Session σ α := events.foldl step t

/-- A solve leaves the fitter as it is, whether it returns or not. -/
theorem fitter_solve (t : Session σ α) (observer : Option (Observer σ α)) :
    (t.run (.solve observer)).2.fitter = t.fitter := by
  rw [run]
  split <;> rfl

/-- So does writing over the last result. -/
theorem fitter_spoil (t : Session σ α) (value : Except Fault (Grid α)) :
    (t.run (.spoil value)).2.fitter = t.fitter := by
  rw [run]
  split
  · split <;> rfl
  · rfl

/-- An event does to the ledger what it should. -/
theorem ledger_step (t : Session σ α) (e : Event σ α) :
    (t.step e).fitter.store.ledger = e.effect t.fitter.store.ledger := by
  cases e with
  | request held r => exact (Store.Session.step_run ⟨t.fitter.store, held⟩ r).ledger_eq
  | command c =>
    cases c with
    | add x y weight =>
      rw [step, run, Event.effect, add]
      rcases Store.add_cases t.fitter.store x y weight with
        ⟨o, nonempty, agrees, admitted, added⟩ | ⟨refused, e, failed⟩
      · rw [added, admitted]
        rfl
      · rw [failed, refused]
        rfl
    | configure config => cases config <;> rfl
    | exchange model user => rfl
    | warmStart => rfl
    | solve observer => rw [step, fitter_solve]; rfl
    | spoil value => rw [step, fitter_spoil]; rfl
    | observations => rfl

/-- An observation is added exactly if the ledger admits it. -/
theorem run_add_eq_ok_iff (t : Session σ α) (x : Except Fault (Grid α))
    (y weight : Except Fault α) :
    (t.run (.add x y weight)).1 = .ok .nothing ↔
      ∃ o, t.fitter.store.ledger.admit? x y weight = some o := by
  rw [run, add]
  rcases Store.add_cases t.fitter.store x y weight with
    ⟨o, nonempty, agrees, admitted, added⟩ | ⟨refused, e, failed⟩
  · rw [added, admitted]
    exact iff_of_true rfl ⟨o, rfl⟩
  · rw [failed, refused]
    exact iff_of_false nofun nofun

/-- With pure models given to it a fitter has a pure model. -/
theorem isPure_step {t : Session σ α} {e : Event σ α} (pure : t.fitter.model.IsPure)
    (given : e.IsPure) : (t.step e).fitter.model.IsPure := by
  cases e with
  | request held r => exact pure
  | command c =>
    cases c with
    | add x y weight =>
      rw [step, run, add]
      cases t.fitter.store.add x y weight <;> exact pure
    | configure config => cases config <;> exact pure
    | exchange model user => exact given
    | warmStart => exact pure
    | solve observer => rw [step, fitter_solve]; exact pure
    | spoil value => rw [step, fitter_spoil]; exact pure
    | observations => exact pure

/-- Events have the effects on a session that they have on the ledger. -/
theorem ledger_after (t : Session σ α) (events : List (Event σ α)) :
    (t.after events).fitter.store.ledger = events.foldl Event.effect t.fitter.store.ledger := by
  induction events generalizing t with
  | nil => rfl
  | cons e events ih =>
    rw [List.foldl_cons, ← ledger_step]
    exact ih (t.step e)

theorem isPure_after {t : Session σ α} {events : List (Event σ α)} (pure : t.fitter.model.IsPure)
    (given : ∀ e ∈ events, e.IsPure) : (t.after events).fitter.model.IsPure := by
  induction events generalizing t with
  | nil => exact pure
  | cons e events ih =>
    exact ih (isPure_step pure (given e List.mem_cons_self))
      fun e' member => given e' (List.mem_cons_of_mem e member)

/-- Sessions with related states answer a solve in the same way if their solves are related. -/
theorem answer_solve_eq {t t' : Session σ α} {observer : Option (Observer σ α)}
    (result : (Run.start t.user (t.fitter.solve observer)).1 =
      (Run.start t'.user (t'.fitter.solve observer)).1)
    (lines : (Run.start t.user (t.fitter.solve observer)).2.lines =
      (Run.start t'.user (t'.fitter.solve observer)).2.lines)
    (visits : (Run.start t.user (t.fitter.solve observer)).2.visits =
      (Run.start t'.user (t'.fitter.solve observer)).2.visits) :
    (t.run (.solve observer)).1 = (t'.run (.solve observer)).1 := by
  rw [run, run]
  rcases h : Run.start t.user (t.fitter.solve observer) with ⟨_ | r, w⟩ <;>
    rcases h' : Run.start t'.user (t'.fitter.solve observer) with ⟨_ | r', w'⟩ <;>
      rw [h, h'] at result lines visits
  -- With equal results both solves fail or both return.
  · cases result
    rfl
  · cases result
  · cases result
  · cases result
    dsimp only at lines visits ⊢
    rw [lines, visits]

/-- **Every solve of a session is independent.** Whatever happened in a session whose fitter was
created with a pure model and was given no others: the ledger of the observations is what the events
make of an empty one, to which just the observations that were added successfully are appended; and
a fresh fitter that holds the same log, with the model and the parameters as they are then, solves
in the same way. Its result or its fault, the lines that it prints and what the observer is shown
are the same, even if the user's state is another one that the observer cannot tell apart. -/
theorem solve_after {model : Model (Act σ) α} {config : Config α} {f : Fitter σ α}
    (created : create model config = .ok f) (pure : model.IsPure) (u : σ)
    {events : List (Event σ α)} (given : ∀ e ∈ events, e.IsPure) :
    let t := (start f u).after events
    let l := events.foldl Event.effect ⟨none, []⟩
    t.fitter.store.ledger = l ∧
    (∀ x y weight, (t.run (.add x y weight)).1 = .ok .nothing ↔
      ∃ o, l.admit? x y weight = some o) ∧
    ∃ fresh, holding t.fitter.model t.fitter.config l.log = .ok fresh ∧
      ∀ (R : σ → σ → Prop) (v : σ) (observer : Option (Observer σ α)),
        (∀ o ∈ observer, o.Respects R) → R t.user v →
          (Run.start t.user (t.fitter.solve observer)).1 = (Run.start v (fresh.solve observer)).1 ∧
          (Run.start t.user (t.fitter.solve observer)).2.lines =
            (Run.start v (fresh.solve observer)).2.lines ∧
          (Run.start t.user (t.fitter.solve observer)).2.visits =
            (Run.start v (fresh.solve observer)).2.visits ∧
          (t.run (.solve observer)).1 = ((start fresh v).run (.solve observer)).1 := by
  intro t l
  have begun : f = ⟨model, config, .empty none⟩ := by
    rw [create] at created
    split at created <;> cases created
    rfl
  subst begun
  have ledger : t.fitter.store.ledger = l := ledger_after _ events
  have stays : t.fitter.model.IsPure := isPure_after pure given
  have untold : t.fitter.store.ledger.Untold := by
    rw [ledger]
    exact Event.untold_foldl events fun _ => rfl
  obtain ⟨fresh, held, model_eq, config_eq, ledger_eq⟩ := exists_fresh t.fitter untold
  refine ⟨ledger, fun x y weight => ledger ▸ run_add_eq_ok_iff t x y weight, fresh,
    congrArg Store.Ledger.log ledger ▸ held, ?_⟩
  intro R v observer respects related
  -- The fresh fitter solves in the state `v`, which the session's own fitter cannot tell from its.
  have same : t.fitter.solve observer = fresh.solve observer :=
    solve_congr stays model_eq.symm config_eq.symm ledger_eq.symm observer
  have solves : Run.start v (t.fitter.solve observer) = Run.start v (fresh.solve observer) := by
    rw [same]
  obtain ⟨result, trace⟩ : (Run.start t.user (t.fitter.solve observer)).1 =
        (Run.start v (t.fitter.solve observer)).1 ∧
      Run.SameTrace R (Run.start t.user (t.fitter.solve observer)).2
        (Run.start v (t.fitter.solve observer)).2 :=
    related_solve stays respects ⟨t.user, #[], #[]⟩ ⟨v, #[], #[]⟩ ⟨related, rfl, rfl⟩
  rw [solves] at result trace
  have answer : (t.run (.solve observer)).1 = ((start fresh v).run (.solve observer)).1 :=
    answer_solve_eq result trace.lines trace.visits
  exact ⟨result, trace.lines, trace.visits, answer⟩

section Meddling

/-- An observer that counts its calls, writes into the coefficients and stops at the second call. -/
def meddling : Observer Nat Ranged where
  observe call _ beta balance := do
    modify (· + 1)
    if call = 2 then throw (.stopped "enough")
    return (beta.map (1 + ·), balance)

/-- No state makes a difference to what it does. -/
theorem meddling_respects : meddling.Respects fun _ _ => True := by
  intro n call shape beta balance u v _
  by_cases second : call = 2
  · subst second
    exact ⟨rfl, trivial⟩
  · simp only [meddling, second, if_false]
    exact ⟨rfl, trivial⟩

/-- A model of a family, without an intercept. -/
def familyModel (f : Family Ranged) : Model (Act Nat) Ranged :=
  (GeneralizedLinear.model ⟨some f, false⟩).lift

theorem isPure_familyModel (f : Family Ranged) : (familyModel f).IsPure :=
  ⟨_, GeneralizedLinear.readsLedger_model _, rfl⟩

/-- Observations are added, one of them in vain; a solve is stopped half way and another one
returns, and its result is written over; arrays are read; and the model is exchanged. -/
def eventful : List (Event Nat Ranged) :=
  [.command (.add (.ok (.ofList [1])) (.ok 1) (.ok 1)),
    .command (.add (.ok (.ofList [1, 1])) (.ok 1) (.ok 1)),
    .command (.solve (some meddling)), .command (.solve none),
    .command (.spoil (.ok (.ofList [0]))), .request none .views,
    .request none (.add (.ok (.ofList [0])) (.ok 1) (.ok 1)),
    .command .warmStart, .command (.exchange (familyModel .poisson) 7)]

/-- After all that a solve is that of a fresh fitter. -/
theorem solve_after_eventful :
    let _ : LeastSquares Ranged := .regular
    let config : Config Ranged := ⟨1, 0, 0, 0, 3, .level 2, true⟩
    let t := (start ⟨familyModel .linear, config, .empty none⟩ 0).after eventful
    ∃ fresh, holding t.fitter.model t.fitter.config [⟨[1], 1, 1⟩, ⟨[0], 1, 1⟩] = .ok fresh ∧
      (t.run (.solve (some meddling))).1 = ((start fresh 0).run (.solve (some meddling))).1 := by
  intro _ config t
  have given : ∀ e ∈ eventful, e.IsPure := by
    simp only [eventful, List.forall_mem_cons, Event.IsPure, isPure_familyModel, List.not_mem_nil,
      false_implies, implies_true, and_self]
  have respects : ∀ o ∈ some meddling, o.Respects fun _ _ => True := by
    intro o member
    cases member
    exact meddling_respects
  have created :
      create (familyModel .linear) config = .ok ⟨familyModel .linear, config, .empty none⟩ :=
    rfl
  have log : (eventful.foldl Event.effect ⟨none, []⟩).log =
      [(⟨[1], 1, 1⟩ : Observation Ranged), ⟨[0], 1, 1⟩] := by
    decide +kernel
  obtain ⟨-, -, fresh, held, solves⟩ := solve_after created (isPure_familyModel .linear) 0 given
  rw [log] at held
  exact ⟨fresh, held, (solves _ 0 _ respects trivial).2.2.2⟩

end Meddling

end Session

end Fitter

end BalanceFit
