import BalanceFit.Proofs.Store.Refinement

/-!
# Arrays that were read are snapshots

The predictors that a store hands out show its log at that moment, and go on doing so whatever is
asked of the store afterwards. As long as nothing is appended the store hands out the same array
again. An append makes it forget the array, and what it hands out from then on are new ones, of
which the first rows are those of the old one.

## Main definitions

* `Session.Appends`, `Session.AppendsAmong` : whether a request, or one of several, appends
* `Session.Current`, `Session.Outdated` : the two states that an array which was read can be in

## Main statements

* `Session.after_cases` : an array is current until something is appended, and outdated from then on
* `Session.snapshot_permanent` : what an array that was read shows, and whether it is read again
-/

namespace BalanceFit.Store

variable {α : Type}

namespace Ledger

theorem prefix_pushIf (l : Ledger α) (o : Option (Observation α)) : l.log <+: (l.pushIf o).log := by
  cases o with
  | none => exact List.prefix_refl _
  | some o => exact List.prefix_append _ _

theorem prefix_pushRows (l : Ledger α) (rows : List (Grid α × α × α)) :
    l.log <+: (l.pushRows rows).2.log := by
  induction rows generalizing l with
  | nil => exact List.prefix_refl _
  | cons row rest ih =>
    obtain ⟨x, y, weight⟩ := row
    rw [pushRows]
    split
    case h_1 o _ => exact (List.prefix_append l.log [o]).trans (ih (l.push o))
    case h_2 => exact List.prefix_refl _

/-- A request appends to the log, if it does anything to it. -/
theorem prefix_after [One α] (l : Ledger α) (r : Request α) : l.log <+: (l.after r).log := by
  cases r
  case add x y weight => exact l.prefix_pushIf _
  case addAndSpoil x y weight value => exact l.prefix_pushIf _
  case extend x y weights =>
    rw [after]
    split
    · exact l.prefix_pushRows _
    · exact List.prefix_refl _
  all_goals exact List.prefix_refl _

end Ledger

section Reading

variable {s s' : Store α} {v : Views α}

/-- Arrays that are kept are handed out again. -/
theorem read_of_cached (cached : s.cache = some v) : s.read = .ok (v, s) := by
  rw [read.eq_def]
  split
  case h_1 w cached' => rw [Option.some.inj (cached.symm.trans cached')]
  case h_2 fresh =>
    rw [fresh] at cached
    cases cached

/-- Arrays that are handed out show the log, and are kept. -/
theorem kept_of_read (returned : s.read = .ok (v, s')) :
    v.x = s.log.map (·.x) ∧ s'.log = s.log ∧ s'.cache = some v := by
  cases columns : s.ledger.columns? with
  | none =>
    obtain ⟨f, failed⟩ := read_of_not_columns? columns
    rw [failed] at returned
    cases returned
  | some p =>
    obtain ⟨w, s₁, returned', stacked, same, cached, -⟩ := read_of_columns? columns
    cases returned.symm.trans returned'
    exact ⟨congrArg Views.x stacked, congrArg Ledger.log same, cached⟩

end Reading

namespace Session

section Appending

variable [One α]

/-- Whether a request appends an observation. The rows of an extension are appended one by one, so
it does if its first row is. -/
def Appends (t : Session α) : Request α → Prop
  | .add x y weight | .addAndSpoil x y weight _ => ∃ r, t.store.add x y weight = .ok r
  | .extend x y weights =>
    ∃ row rest, rowsOf x y weights = .ok (row :: rest) ∧
      ∃ r, t.store.add (.ok row.1) (.ok row.2.1) (.ok row.2.2) = .ok r
  | _ => False

/-- Whether one of some requests appends an observation. -/
def AppendsAmong (t : Session α) : List (Request α) → Prop
  | [] => False
  | r :: rs => t.Appends r ∨ (t.run r).2.AppendsAmong rs

variable {t : Session α} {r : Request α}

theorem prefix_run (t : Session α) (r : Request α) : t.store.log <+: (t.run r).2.store.log := by
  have grown := t.store.ledger.prefix_after r
  rwa [← (step_run t r).ledger_eq] at grown

/-- A request that appends makes the log longer and the store forget its arrays. -/
theorem forgets_of_appends (appends : t.Appends r) :
    (∃ o, t.store.log ++ [o] <+: (t.run r).2.store.log) ∧ (t.run r).2.store.cache = none ∧
      (t.run r).2.store.built = t.store.built := by
  cases r
  case add x y weight =>
    obtain ⟨r, added⟩ := appends
    rcases add_cases t.store x y weight with ⟨o, nonempty, agrees, -, added'⟩ | ⟨-, f, failed⟩
    · rw [run, added']
      exact ⟨⟨o, List.prefix_refl _⟩, rfl, rfl⟩
    · cases added.symm.trans failed
  case addAndSpoil x y weight value =>
    obtain ⟨r, added⟩ := appends
    rcases add_cases t.store x y weight with ⟨o, nonempty, agrees, -, added'⟩ | ⟨-, f, failed⟩
    · rw [run, added']
      dsimp only
      split <;> exact ⟨⟨o, List.prefix_refl _⟩, rfl, rfl⟩
    · cases added.symm.trans failed
  case extend x y weights =>
    obtain ⟨⟨g, h, w⟩, rest, counted, r, added⟩ := appends
    rcases add_cases t.store (.ok g) (.ok h) (.ok w) with
      ⟨o, nonempty, agrees, -, added'⟩ | ⟨-, f, failed⟩
    · -- The other rows are appended to a store that has forgotten its arrays.
      let s := t.store.push o nonempty agrees
      have extended : (t.run (.extend x y weights)).2 = t.withStore (s.addAll rest).2 := by
        rw [run, extend, counted]
        dsimp only
        rw [addAll, added']
      obtain ⟨built, cache⟩ := addAll_builds_nothing s rest
      have grown := s.ledger.prefix_pushRows rest
      rw [← (addAll_eq s rest).1] at grown
      rw [extended]
      refine ⟨⟨o, grown⟩, Option.eq_none_iff_forall_ne_some.2 fun v cached => ?_, built⟩
      cases cache v cached
    · cases added.symm.trans failed
  all_goals exact appends.elim

omit [One α] in
/-- With arrays that are kept, a request that needs arrays goes on in the same session. -/
theorem reading_of_cached {v : Views α} (cached : t.store.cache = some v)
    (f : Views α → Session α → Except Fault (Reply α) × Session α) : t.reading f = f v t := by
  rw [reading, read_of_cached cached]
  rfl

omit [One α] in
/-- If a request that needs arrays is answered, they were read. -/
theorem exists_of_reading {f : Views α → Session α → Except Fault (Reply α) × Session α}
    {reply : Reply α} {t₁ : Session α} (replied : t.reading f = (.ok reply, t₁)) :
    ∃ v s, t.store.read = .ok (v, s) ∧ f v (t.withStore s) = (.ok reply, t₁) := by
  rw [reading] at replied
  split at replied
  · cases (Prod.mk.inj replied).1
  case h_2 v s read => exact ⟨v, s, read, replied⟩

/-- A request that appends nothing leaves a store that keeps arrays as it is. -/
theorem store_run_of_not_appends {v : Views α} (cached : t.store.cache = some v)
    (nothing : ¬ t.Appends r) : (t.run r).2.store = t.store := by
  cases r
  case add x y weight =>
    rw [run]
    cases added : t.store.add x y weight with
    | ok r => exact absurd ⟨r, added⟩ nothing
    | error f => rfl
  case addAndSpoil x y weight value =>
    rw [run]
    cases added : t.store.add x y weight with
    | ok r => exact absurd ⟨r, added⟩ nothing
    | error f => rfl
  case extend x y weights =>
    rw [run, extend]
    cases counted : rowsOf x y weights with
    | error f => rfl
    | ok rows =>
      cases rows with
      | nil => rfl
      | cons row rest =>
        obtain ⟨g, h, w⟩ := row
        dsimp only
        rw [addAll]
        cases added : t.store.add (.ok g) (.ok h) (.ok w) with
        | ok r => exact absurd ⟨_, rest, counted, r, added⟩ nothing
        | error f => rfl
  case views => rw [run, reading_of_cached cached]
  case hold => rw [run, reading_of_cached cached]
  case held =>
    rw [run]
    split
    · rfl
    · rw [reading_of_cached cached]
  case write target =>
    cases target
    case predictor i => rfl
    all_goals
      rw [run, reading_of_cached cached]
      intro i same
      cases same
  all_goals rfl

end Appending

/-- The store still keeps the arrays that were read when the log was `log`. -/
structure Current (v : Views α) (log : List (Observation α)) (t : Session α) : Prop where
  cached : t.store.cache = some v
  log_eq : t.store.log = log

/-- The log has grown since the arrays were read, and the store does not hand them out again. -/
structure Outdated (v : Views α) (log : List (Observation α)) (t : Session α) : Prop where
  grown : ∃ o, log ++ [o] <+: t.store.log
  earlier : v.stamp < t.store.built
  replaced : ∀ w, t.store.cache = some w → w.stamp ≠ v.stamp

variable [One α] {v : Views α} {log : List (Observation α)} {t : Session α}

theorem Current.run (current : Current v log t) {r : Request α} (nothing : ¬ t.Appends r) :
    Current v log (t.run r).2 := by
  have same := store_run_of_not_appends current.cached nothing
  exact ⟨by rw [same, current.cached], by rw [same, current.log_eq]⟩

theorem Current.outdated_run (current : Current v log t) {r : Request α} (appends : t.Appends r) :
    Outdated v log (t.run r).2 := by
  obtain ⟨grown, forgotten, built⟩ := forgets_of_appends appends
  rw [current.log_eq] at grown
  have earlier := (t.store.coherent v current.cached).earlier
  refine ⟨grown, by rw [built]; exact earlier, fun w cached => ?_⟩
  rw [forgotten] at cached
  cases cached

omit [One α] in
/-- What the store keeps from now on are arrays with another stamp: it has kept them since before,
or builds them now. -/
theorem Outdated.step (outdated : Outdated v log t) {l : Ledger α} {t' : Session α}
    (step : Step t l t') (grows : t.store.log <+: t'.store.log) : Outdated v log t' := by
  obtain ⟨⟨o, grown⟩, earlier, replaced⟩ := outdated
  cases step with
  | change _ built kept =>
    exact ⟨⟨o, grown.trans grows⟩, Nat.lt_of_lt_of_eq earlier built.symm,
      fun w cached => replaced w (kept w cached)⟩
  | read _ cached more age _ =>
    refine ⟨⟨o, grown.trans grows⟩, Nat.lt_of_lt_of_le earlier more, fun w cached' => ?_⟩
    obtain rfl := Option.some.inj (cached.symm.trans cached')
    rcases age with old | new
    · exact replaced _ old
    · omega

/-- An array is current until something is appended, and outdated from then on. -/
theorem after_cases (current : Current v log t) (rs : List (Request α)) :
    ¬ t.AppendsAmong rs ∧ Current v log (t.after rs) ∨
      t.AppendsAmong rs ∧ Outdated v log (t.after rs) := by
  have stays (t : Session α) (outdated : Outdated v log t) (rs : List (Request α)) :
      Outdated v log (t.after rs) := by
    induction rs generalizing t with
    | nil => exact outdated
    | cons r rs ih => exact ih _ (outdated.step (step_run t r) (prefix_run t r))
  induction rs generalizing t with
  | nil => exact .inl ⟨not_false, current⟩
  | cons r rs ih =>
    by_cases appends : t.Appends r
    · exact .inr ⟨.inl appends, stays _ (current.outdated_run appends) rs⟩
    · rcases ih (current.run appends) with ⟨nothing, current⟩ | ⟨later, outdated⟩
      · exact .inl ⟨fun some => some.elim appends nothing, current⟩
      · exact .inr ⟨.inr later, outdated⟩

omit [One α] in
/-- With an observation in its log a store hands out arrays, and outdated ones are not among them.
-/
theorem Outdated.exists_read (outdated : Outdated v log t) :
    ∃ v' s, t.store.read = .ok (v', s) ∧ v'.stamp ≠ v.stamp := by
  obtain ⟨⟨o, grown⟩, earlier, replaced⟩ := outdated
  have member : o ∈ t.store.log := grown.subset (by simp)
  obtain ⟨v', s, returned, -, -, -, -, age⟩ := read_of_columns? (columns?_of_mem member)
  refine ⟨v', s, returned, ?_⟩
  rcases age with old | new
  · exact replaced v' old
  · omega

/-- Reading again after some requests gives the arrays that were read before exactly if nothing was
appended, and always arrays that begin with their rows. -/
theorem exists_read_after (current : Current v t.store.log t) (rs : List (Request α)) :
    ∃ v' s, (t.after rs).store.read = .ok (v', s) ∧
      v'.x = (t.after rs).store.log.map (·.x) ∧ t.store.log.map (·.x) <+: v'.x ∧
        (v'.stamp = v.stamp ↔ ¬ t.AppendsAmong rs) ∧ (v'.stamp = v.stamp → v' = v) := by
  rcases after_cases current rs with ⟨nothing, current'⟩ | ⟨appends, outdated⟩
  · have returned := read_of_cached current'.cached
    have shown := (kept_of_read returned).1
    refine ⟨v, _, returned, shown, ⟨[], ?_⟩, iff_of_true rfl nothing, fun _ => rfl⟩
    rw [List.append_nil, shown, current'.log_eq]
  · obtain ⟨v', s, returned, other⟩ := outdated.exists_read
    have shown := (kept_of_read returned).1
    obtain ⟨o, grown⟩ := outdated.grown
    refine ⟨v', s, returned, shown, ?_, iff_of_false other (not_not_intro appends), fun same =>
      absurd same other⟩
    rw [shown]
    exact ((List.prefix_append _ _).trans grown).map _

/-- What the user holds on to is exchanged only by holding on to something else. -/
theorem hold_run {r : Request α} (other : r ≠ .hold) : (t.run r).2.hold = t.hold := by
  have reading (reply : Views α → Except Fault (Reply α)) :
      (t.reading fun v t => (reply v, t)).2.hold = t.hold := by
    rw [Session.reading]
    split <;> rfl
  cases r
  case add x y weight =>
    rw [run]
    split <;> rfl
  case addAndSpoil x y weight value =>
    rw [run]
    split
    · split <;> rfl
    · rfl
  case views => exact reading _
  case hold => exact absurd rfl other
  case held =>
    rw [run]
    split
    · rfl
    · exact reading _
  case write target =>
    cases target
    case predictor i => rfl
    all_goals exact reading _
  all_goals rfl

theorem hold_after {rs : List (Request α)} (others : ∀ r ∈ rs, r ≠ .hold) :
    (t.after rs).hold = t.hold := by
  induction rs generalizing t with
  | nil => rfl
  | cons r rs ih =>
    exact (ih fun r member => others r (List.mem_cons_of_mem _ member)).trans
      (hold_run (others r List.mem_cons_self))

/-- **Arrays that were read are snapshots.** Whatever is asked of a store after its arrays were
read: they show the rows that the log had then, and with these rows the predictors begin that are
read later. Those are the same array again, as its stamp tells, exactly if nothing was appended in
between. An array that the user holds on to still shows these rows when it is looked at, and counts
as current exactly as long as nothing was appended. -/
theorem snapshot_permanent (t : Session α) :
    (∀ v t₁, t.run .views = (.ok (.views v), t₁) → ∀ rs,
      v.x = t.store.log.map (·.x) ∧
      ∃ v' t₂, (t₁.after rs).run .views = (.ok (.views v'), t₂) ∧
        v'.x = (t₁.after rs).store.log.map (·.x) ∧ v.x <+: v'.x ∧
          (v'.stamp = v.stamp ↔ ¬ t₁.AppendsAmong rs) ∧ (v'.stamp = v.stamp → v' = v)) ∧
    ∀ x t₁, t.run .hold = (.ok (.predictors x), t₁) → ∀ rs, (∀ r ∈ rs, r ≠ .hold) →
      x = t.store.log.map (·.x) ∧
      ∃ current, ((t₁.after rs).run .held).1 = .ok (.held x current) ∧
        (current = true ↔ ¬ t₁.AppendsAmong rs) ∧
          x <+: (t₁.after rs).store.log.map (·.x) := by
  constructor
  · intro v t₁ returned rs
    rw [Session.run] at returned
    obtain ⟨w, s, read, replied⟩ := exists_of_reading returned
    cases replied
    obtain ⟨shown, same, cached⟩ := kept_of_read read
    obtain ⟨v', s', again, shown', begins, iff, eq⟩ :=
      exists_read_after (t := t.withStore s) ⟨cached, rfl⟩ rs
    refine ⟨shown, v', _, by rw [Session.run, reading, again], shown', ?_, iff, eq⟩
    rw [shown, ← same]
    exact begins
  · intro x t₁ returned rs others
    rw [Session.run] at returned
    obtain ⟨w, s, read, replied⟩ := exists_of_reading returned
    cases replied
    obtain ⟨shown, same, cached⟩ := kept_of_read read
    obtain ⟨v', s', again, shown', begins, iff, -⟩ :=
      exists_read_after (t := ⟨s, some w⟩) ⟨cached, rfl⟩ rs
    have held : ((⟨s, some w⟩ : Session α).after rs).hold = some w := hold_after others
    refine ⟨shown, w.stamp == v'.stamp, ?_, ?_, ?_⟩
    · change (((⟨s, some w⟩ : Session α).after rs).run .held).1 = _
      rw [Session.run, held]
      dsimp only
      rw [reading, again]
    · rw [beq_iff_eq, eq_comm]
      exact iff
    · rw [shown, ← same]
      rw [shown'] at begins
      exact begins

/-- The predictors of one observation are held. A failing append, a failing extension, a reading and
a write leave them current; they no longer are after another observation, but still show the first
one. -/
theorem snapshot_permanent_held :
    let add (x : List Float) : Request Float := .add (.ok (.ofList x)) (.ok 0) (.ok 1)
    let failing : List (Request Float) :=
      [add [5], .extend (.ok ⟨[1, 1], [5]⟩) (.ok (.ofList [0])) none, .views, .write .x]
    let t := (Session.start (.empty none)).after [add [1, 2]]
    let t₁ := (t.run .hold).2
    ((t₁.after failing).run .held).1 = .ok (.held [[1, 2]] true) ∧
      ((t₁.after (failing ++ [add [3, 4]])).run .held).1 = .ok (.held [[1, 2]] false) := by
  intro add failing t t₁
  have law := (snapshot_permanent t).2 [[1, 2]] t₁ rfl
  have others (r : Request Float) (member : r ∈ failing ++ [add [3, 4]]) : r ≠ .hold := by
    rintro rfl
    simp [failing, add] at member
  constructor
  · obtain ⟨-, current, held, iff, -⟩ :=
      law failing fun r member => others r (List.mem_append_left _ member)
    have nothing : ¬ t₁.AppendsAmong failing := by
      rintro (⟨r, added⟩ | ⟨row, rest, counted, r, added⟩ | appends | appends | appends)
      · cases added
      · cases counted
        cases added
      all_goals exact appends
    rw [held, iff.2 nothing]
  · obtain ⟨-, current, held, iff, -⟩ := law _ others
    have appends : t₁.AppendsAmong (failing ++ [add [3, 4]]) :=
      .inr (.inr (.inr (.inr (.inl ⟨_, rfl⟩))))
    have outdated : current = false := by
      rw [← Bool.not_eq_true, iff]
      exact not_not_intro appends
    rw [held, outdated]

end Session

end BalanceFit.Store
