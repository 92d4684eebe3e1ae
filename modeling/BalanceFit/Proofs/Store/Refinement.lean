import BalanceFit.Proofs.Store.Ledger

/-!
# A store is an append-only log

A store keeps the arrays that it built last. The ledger of a store forgets them. Every request has
the effect on the store that it has on the ledger, and is answered as the ledger says, so nobody can
tell from the answers that arrays are kept.

## Main definitions

* `Store.ledger` : the ledger of a store
* `Session.after` : a session after some requests
* `Session.Holds` : an array that the user holds is told apart from all that show another log
* `Session.Step` : what a request can do to a session

## Main statements

* `Session.step_run`, `Session.answers_run` : the effect of a request, and the answer to it
* `Session.refines_ledger` : the same after any requests
-/

namespace BalanceFit.Store

variable {α : Type}

/-- A store without its arrays. -/
def ledger (s : Store α) : Ledger α := ⟨s.width, s.log⟩

@[simp] theorem log_ledger (s : Store α) : s.ledger.log = s.log := rfl

@[simp] theorem width_ledger (s : Store α) : s.ledger.width = s.width := rfl

section Append

variable {s : Store α} {x : Except Fault (Grid α)} {y weight : Except Fault α}

/-- An observation whose parts are numbers and whose predictor fits is appended. -/
theorem add_ok {g : Grid α} {y weight : α} (vector : g.shape.length = 1 ∧ 1 ≤ g.entries.length)
    (agrees : ∀ w, s.width = some w → w.admits g.entries.length = true) :
    s.add (.ok g) (.ok y) (.ok weight) =
      .ok (⟨g.entries, y, weight⟩, s.push ⟨g.entries, y, weight⟩ vector.2 agrees) := by
  simp only [add, bind, Except.bind]
  rw [dif_pos vector, dif_pos agrees]
  rfl

/-- If an observation was appended, its parts are numbers and its predictor fits. -/
theorem parts_of_add {r : Observation α × Store α} (added : s.add x y weight = .ok r) :
    ∃ g y' weight', x = .ok g ∧ y = .ok y' ∧ weight = .ok weight' ∧
      (g.shape.length = 1 ∧ 1 ≤ g.entries.length) ∧
        ∀ w, s.width = some w → w.admits g.entries.length = true := by
  rcases x with f | g
  case error => cases added
  simp only [add, bind, Except.bind] at added
  split at added
  case isFalse => cases added
  case isTrue vector =>
    split at added
    case isFalse => cases added
    case isTrue agrees =>
      rcases y with f | y
      case error => cases added
      rcases weight with f | weight
      case error => cases added
      exact ⟨g, y, weight, rfl, rfl, rfl, vector, agrees⟩

/-- Appending fails exactly if the ledger does not admit the observation. -/
theorem add_cases (s : Store α) (x : Except Fault (Grid α)) (y weight : Except Fault α) :
    (∃ o nonempty agrees, s.ledger.admit? x y weight = some o ∧
        s.add x y weight = .ok (o, s.push o nonempty agrees)) ∨
      s.ledger.admit? x y weight = none ∧ ∃ f, s.add x y weight = .error f := by
  cases admitted : s.ledger.admit? x y weight with
  | some o =>
    obtain ⟨⟨g, rfl, axes, entries⟩, rfl, rfl, nonempty, agrees⟩ :=
      Ledger.admit?_eq_some_iff.1 admitted
    rcases o with ⟨_, y, weight⟩
    cases entries
    exact .inl ⟨_, nonempty, agrees, rfl, add_ok ⟨axes, nonempty⟩ agrees⟩
  | none =>
    refine .inr ⟨rfl, ?_⟩
    cases added : s.add x y weight with
    | error f => exact ⟨f, rfl⟩
    | ok r =>
      obtain ⟨g, y, weight, rfl, rfl, rfl, vector, agrees⟩ := parts_of_add added
      have fits := Ledger.admit?_eq_some_iff (l := s.ledger) (o := ⟨g.entries, y, weight⟩).2
        ⟨⟨g, rfl, vector.1, rfl⟩, rfl, rfl, vector.2, agrees⟩
      rw [admitted] at fits
      cases fits

/-- Appending rows builds no arrays. -/
theorem addAll_builds_nothing (s : Store α) (rows : List (Grid α × α × α)) :
    (s.addAll rows).2.built = s.built ∧
      ∀ v, (s.addAll rows).2.cache = some v → s.cache = some v := by
  induction rows generalizing s with
  | nil => exact ⟨rfl, fun _ cached => cached⟩
  | cons row rest ih =>
    obtain ⟨x, y, weight⟩ := row
    rw [addAll]
    rcases add_cases s (.ok x) (.ok y) (.ok weight) with
      ⟨o, nonempty, agrees, -, added⟩ | ⟨-, f, failed⟩
    · rw [added]
      obtain ⟨built, cache⟩ := ih (s.push o nonempty agrees)
      exact ⟨built, fun v cached => nomatch cache v cached⟩
    · rw [failed]
      exact ⟨rfl, fun _ cached => cached⟩

/-- Rows are appended until the ledger does not admit one. -/
theorem addAll_eq (s : Store α) (rows : List (Grid α × α × α)) :
    (s.addAll rows).2.ledger = (s.ledger.pushRows rows).2 ∧
      if (s.ledger.pushRows rows).1 then (s.addAll rows).1 = .ok ()
      else ∃ f, (s.addAll rows).1 = .error f := by
  induction rows generalizing s with
  | nil => exact ⟨rfl, rfl⟩
  | cons row rest ih =>
    obtain ⟨x, y, weight⟩ := row
    rw [addAll, Ledger.pushRows]
    rcases add_cases s (.ok x) (.ok y) (.ok weight) with
      ⟨o, nonempty, agrees, admitted, added⟩ | ⟨refused, f, failed⟩
    · rw [admitted, added]
      exact ih (s.push o nonempty agrees)
    · rw [refused, failed]
      exact ⟨rfl, f, rfl⟩

end Append

/-- The ledger knows the number of columns, if there is one. -/
theorem columns?_eq (s : Store α) :
    s.ledger.columns? = (Views.columnsOf s.width s.log).toOption := by
  rw [ledger, Ledger.columns?.eq_def, Views.columnsOf.eq_def]
  cases s.log with
  | cons o rest => rfl
  | nil =>
    cases s.width with
    | none => rfl
    | some w =>
      cases w with
      | whole n =>
        simp only [Width.columns]
        split <;> rfl
      | single => rfl
      | real x => rfl

/-- Reading gives a stacking of the log, which is kept. Either it was there, or it is a new one. -/
theorem read_of_columns? {s : Store α} {p : Nat} (columns : s.ledger.columns? = some p) :
    ∃ v s', s.read = .ok (v, s') ∧ v = Views.stack v.stamp p s.log ∧ s'.ledger = s.ledger ∧
      s'.cache = some v ∧ s.built ≤ s'.built ∧ (s.cache = some v ∨ v.stamp = s.built) := by
  rw [columns?_eq] at columns
  rw [read.eq_def]
  split
  case h_1 v cached =>
    -- That the kept arrays show the log is an invariant of the store.
    have shows := s.coherent v cached
    rw [shows.columns_eq] at columns
    cases columns
    exact ⟨v, s, rfl, shows.eq_stack, rfl, cached, Nat.le_refl _, .inl cached⟩
  case h_2 =>
    split
    case h_1 f unknown =>
      rw [unknown] at columns
      cases columns
    case h_2 q known =>
      rw [known] at columns
      cases columns
      exact ⟨_, _, rfl, rfl, rfl, rfl, Nat.le_succ _, .inr rfl⟩

/-- If no array can have the columns there are no arrays, and the fault is the one that says so. -/
theorem read_of_columnsOf {s : Store α} {f : Fault}
    (unknown : Views.columnsOf s.width s.log = .error f) : s.read = .error f := by
  rw [read.eq_def]
  split
  case h_1 v cached =>
    rw [(s.coherent v cached).columns_eq] at unknown
    cases unknown
  case h_2 =>
    split
    case h_1 e same => rw [Except.error.inj (same.symm.trans unknown)]
    case h_2 p known =>
      rw [known] at unknown
      cases unknown

theorem columnsOf_of_not_columns? {s : Store α} (columns : s.ledger.columns? = none) :
    ∃ f, Views.columnsOf s.width s.log = .error f := by
  rw [columns?_eq] at columns
  cases known : Views.columnsOf s.width s.log with
  | error f => exact ⟨f, rfl⟩
  | ok p =>
    rw [known] at columns
    cases columns

theorem read_of_not_columns? {s : Store α} (columns : s.ledger.columns? = none) :
    ∃ f, s.read = .error f := by
  obtain ⟨f, unknown⟩ := columnsOf_of_not_columns? columns
  exact ⟨f, read_of_columnsOf unknown⟩

theorem views_of_columns? {s : Store α} {p : Nat} (columns : s.ledger.columns? = some p) :
    ∃ stamp, s.views = .ok (Views.stack stamp p s.log) := by
  obtain ⟨v, s', returned, stacked, -⟩ := read_of_columns? columns
  refine ⟨v.stamp, ?_⟩
  rw [views, returned, ← stacked]
  rfl

theorem views_of_not_columns? {s : Store α} (columns : s.ledger.columns? = none) :
    ∃ f, s.views = .error f := by
  obtain ⟨f, failed⟩ := read_of_not_columns? columns
  exact ⟨f, by rw [views, failed]; rfl⟩

/-- With an observation the ledger knows the number of columns. -/
theorem columns?_of_mem {s : Store α} {o : Observation α} (member : o ∈ s.log) :
    s.ledger.columns? = some o.x.length := by
  obtain ⟨-, width⟩ := s.uniform o member
  rw [Ledger.columns?.eq_def, log_ledger, width_ledger]
  cases log : s.log with
  | nil =>
    rw [log] at member
    cases member
  | cons first rest =>
    obtain ⟨-, width'⟩ := s.uniform first (by rw [log]; exact List.mem_cons_self)
    rw [width, Option.some.injEq, Width.whole.injEq] at width'
    exact congrArg some (by omega)

/-- All predictors of a store have one length. -/
theorem length_eq_of_mem {s : Store α} {o o' : Observation α} (member : o ∈ s.log)
    (member' : o' ∈ s.log) : o.x.length = o'.x.length := by
  have h := columns?_of_mem member
  rw [columns?_of_mem member', Option.some.injEq] at h
  exact h.symm

/-- The observation at an index is that of the ledger. -/
theorem nth_eq (s : Store α) (i : Int) :
    s.nth i = match s.ledger.nth? i with
      | some o => .ok o
      | none => .error .noSuchIndex := by
  cases i with
  | ofNat i =>
    have nonneg : ¬ Int.ofNat i < 0 := Int.not_lt.2 (Int.natCast_nonneg i)
    rw [nth, if_neg nonneg, if_neg nonneg]
    rfl
  | negSucc k =>
    have negative : Int.negSucc k < 0 := Int.negSucc_lt_zero k
    rw [nth, if_pos negative, Ledger.nth?, log_ledger]
    by_cases inside : k < s.log.length
    · -- Counting from the end, `-(k + 1)` is the place `length - (k + 1)`.
      have place : Int.negSucc k + s.size = (s.log.length - (k + 1) : Nat) := by
        rw [size]
        omega
      rw [if_neg (by omega), if_pos inside, place]
      rfl
    · rw [if_pos (by rw [size]; omega), if_neg inside]
      rfl

namespace Session

/-- An array that the user holds was built before now, and shows what the kept arrays show if it is
one of them. -/
def Holds (t : Session α) : Prop :=
  ∀ h, t.hold = some h →
    h.stamp < t.store.built ∧ ∀ v, t.store.cache = some v → v.stamp = h.stamp → v.x = h.x

/-- The session after some requests. -/
def after [One α] (t : Session α) (rs : List (Request α)) : Session α :=
  rs.foldl (fun t r => (t.run r).2) t

theorem holds_start (s : Store α) : (Session.start s).Holds := fun _ held => nomatch held

/-- A request that needs arrays goes on with a stacking of the log, and in a session with the same
log. -/
theorem reading_cases (t : Session α)
    (f : Views α → Session α → Except Fault (Reply α) × Session α) :
    (∃ p v s, t.store.ledger.columns? = some p ∧ t.reading f = f v (t.withStore s) ∧
        v = Views.stack v.stamp p t.store.log ∧ s.ledger = t.store.ledger ∧
        s.cache = some v ∧ t.store.built ≤ s.built ∧
        (t.store.cache = some v ∨ v.stamp = t.store.built)) ∨
      t.store.ledger.columns? = none ∧ ∃ e, t.reading f = (.error e, t) := by
  cases columns : t.store.ledger.columns? with
  | some p =>
    obtain ⟨v, s, returned, stacked, same, cached, grows, age⟩ := read_of_columns? columns
    exact .inl ⟨p, v, s, rfl, by rw [reading, returned], stacked, same, cached, grows, age⟩
  | none =>
    obtain ⟨e, failed⟩ := read_of_not_columns? columns
    exact .inr ⟨rfl, e, by rw [reading, failed]⟩

/-- What a request can do to a session, where `l` is the ledger afterwards: it leaves a store for
which no arrays were built, or one whose arrays were read and may be held from now on. -/
inductive Step (t : Session α) (l : Ledger α) : Session α → Prop
  | change {s : Store α} (effect : s.ledger = l) (built : s.built = t.store.built)
      (kept : ∀ v, s.cache = some v → t.store.cache = some v) : Step t l (t.withStore s)
  | read {v : Views α} {s : Store α} {hold : Option (Views α)} (effect : s.ledger = l)
      (cached : s.cache = some v) (grows : t.store.built ≤ s.built)
      (age : t.store.cache = some v ∨ v.stamp = t.store.built)
      (held : hold = t.hold ∨ hold = some v) : Step t l ⟨s, hold⟩

section Requests

variable {t t' : Session α} {l : Ledger α}

theorem Step.refl (t : Session α) : Step t t.store.ledger t := .change rfl rfl fun _ kept => kept

theorem Step.push (t : Session α) (o : Observation α) (nonempty : 1 ≤ o.x.length)
    (agrees : ∀ w, t.store.width = some w → w.admits o.x.length = true) :
    Step t (t.store.ledger.push o) (t.withStore (t.store.push o nonempty agrees)) :=
  .change rfl rfl fun _ kept => nomatch kept

/-- A request that needs arrays is a step if what it does with them is one. -/
theorem Step.reading {f : Views α → Session α → Except Fault (Reply α) × Session α}
    (holds : ∀ v s, ∃ hold, (f v (t.withStore s)).2 = ⟨s, hold⟩ ∧ (hold = t.hold ∨ hold = some v)) :
    Step t t.store.ledger (t.reading f).2 := by
  rcases reading_cases t f with ⟨p, v, s, -, read, -, same, cached, grows, age⟩ | ⟨-, e, failed⟩
  · obtain ⟨hold, left, held⟩ := holds v s
    rw [read, left]
    exact .read same cached grows age held
  · rw [failed]
    exact .refl t

theorem Step.ledger_eq (step : Step t l t') : t'.store.ledger = l := by
  cases step with
  | change effect _ _ => exact effect
  | read effect _ _ _ _ => exact effect

/-- What is known of an array that the user holds stays true. Arrays are kept only if they were kept
before, or are new and so have another stamp. -/
theorem Step.holds (step : Step t l t') (holds : t.Holds) : t'.Holds := by
  cases step with
  | change _ built kept =>
    intro h held
    obtain ⟨earlier, same⟩ := holds h held
    exact ⟨Nat.lt_of_lt_of_eq earlier built.symm, fun v cached => same v (kept v cached)⟩
  | @read v s hold _ cached grows age held =>
    intro h now
    rcases held with before | just
    · obtain ⟨earlier, same⟩ := holds h (before.symm.trans now)
      refine ⟨Nat.lt_of_lt_of_le earlier grows, fun v' cached' stamp => ?_⟩
      obtain rfl : v = v' := Option.some.inj (cached.symm.trans cached')
      rcases age with old | new
      · exact same v old stamp
      · omega
    · obtain rfl : v = h := Option.some.inj (just.symm.trans now)
      refine ⟨(s.coherent v cached).earlier, fun v' cached' _ => ?_⟩
      rw [Option.some.inj (cached'.symm.trans cached)]

variable [One α]

/-- Every request is such a step, and its effect is that on the ledger. -/
theorem step_run (t : Session α) (r : Request α) :
    Step t (t.store.ledger.after r) (t.run r).2 := by
  have read_only (reply : Views α → Except Fault (Reply α)) :
      Step t t.store.ledger (t.reading fun v t => (reply v, t)).2 :=
    .reading fun v s => ⟨t.hold, rfl, .inl rfl⟩
  cases r with
  | add x y weight =>
    rw [run, Ledger.after]
    rcases add_cases t.store x y weight with
      ⟨o, nonempty, agrees, admitted, added⟩ | ⟨refused, f, failed⟩
    · rw [admitted, added]
      exact .push t o nonempty agrees
    · rw [refused, failed]
      exact .refl t
  | addAndSpoil x y weight value =>
    rw [run, Ledger.after]
    rcases add_cases t.store x y weight with
      ⟨o, nonempty, agrees, admitted, added⟩ | ⟨refused, f, failed⟩
    · rw [admitted, added]
      -- Whether the other value can be written makes no difference to the store.
      dsimp only
      split <;> exact .push t o nonempty agrees
    · rw [refused, failed]
      exact .refl t
  | extend x y weights =>
    rw [run, Ledger.after, extend]
    cases rowsOf x y weights with
    | ok rows =>
      obtain ⟨built, kept⟩ := addAll_builds_nothing t.store rows
      exact .change (addAll_eq t.store rows).1 built kept
    | error f => exact .refl t
  | views => exact read_only _
  | hold => exact .reading fun v s => ⟨some v, rfl, .inr rfl⟩
  | held =>
    rw [run]
    cases t.hold with
    | none => exact .refl t
    | some h => exact read_only _
  | write target =>
    cases target with
    | predictor i => exact .refl t
    | x => exact read_only _
    | y => exact read_only _
    | weight => exact read_only _
  | nth i => exact .refl t
  | all => exact .refl t
  | set i => exact .refl t
  | summary => exact .refl t

/-- A request is answered as the ledger says. -/
theorem answers_run (holds : t.Holds) (r : Request α) :
    t.store.ledger.Answers (t.run r).1 r := by
  have refused_write : ∃ f, (t.reading fun _ t => (.error .readOnly, t)).1 = .error f := by
    rcases reading_cases t fun _ t => (.error .readOnly, t) with ⟨_, v, s, -, read, -⟩ | ⟨-, e, failed⟩
    · exact ⟨.readOnly, by rw [read]⟩
    · exact ⟨e, by rw [failed]⟩
  cases r with
  | add x y weight =>
    rw [Ledger.Answers, run]
    rcases add_cases t.store x y weight with
      ⟨o, nonempty, agrees, admitted, added⟩ | ⟨refused, f, failed⟩
    · rw [admitted, added]
    · rw [refused, failed]
      exact ⟨f, rfl⟩
  | addAndSpoil x y weight value =>
    rw [Ledger.Answers, run]
    rcases add_cases t.store x y weight with
      ⟨o, nonempty, agrees, admitted, added⟩ | ⟨refused, f, failed⟩
    · rw [admitted, added]
      dsimp only
      split
      case h_1 => exact .inl rfl
      case h_2 => exact .inr ⟨_, rfl⟩
      case h_3 f _ => exact .inr ⟨f, rfl⟩
    · rw [refused, failed]
      exact ⟨f, rfl⟩
  | extend x y weights =>
    rw [Ledger.Answers, run, extend]
    cases rowsOf x y weights with
    | error f => rfl
    | ok rows =>
      have returned := (addAll_eq t.store rows).2
      dsimp only
      split at returned
      case isTrue all =>
        rw [if_pos all, returned]
        rfl
      case isFalse some_left =>
        obtain ⟨f, failed⟩ := returned
        rw [if_neg some_left, failed]
        exact ⟨f, rfl⟩
  | views =>
    rw [Ledger.Answers, run]
    rcases reading_cases t fun v t => (.ok (.views v), t) with
      ⟨p, v, s, columns, read, stacked, -⟩ | ⟨unknown, e, failed⟩
    · rw [columns, read]
      refine ⟨v, rfl, ?_⟩
      rw [stacked]
      exact ⟨rfl, rfl, rfl, rfl⟩
    · rw [unknown, failed]
      exact ⟨e, rfl⟩
  | nth i =>
    rw [Ledger.Answers, run, nth_eq]
    cases t.store.ledger.nth? i <;> rfl
  | all => rfl
  | hold =>
    rw [Ledger.Answers, run]
    rcases reading_cases t fun v t => (.ok (.predictors v.x), { t with hold := some v }) with
      ⟨p, v, s, columns, read, stacked, -⟩ | ⟨unknown, e, failed⟩
    · rw [columns, read, stacked]
      rfl
    · rw [unknown, failed]
      exact ⟨e, rfl⟩
  | held =>
    intro x replied
    rw [run] at replied
    cases held : t.hold with
    | none =>
      rw [held] at replied
      cases replied
    | some h =>
      rw [held] at replied
      obtain ⟨earlier, same⟩ := holds h held
      dsimp only at replied
      rcases reading_cases t fun v t => (.ok (.held h.x (h.stamp == v.stamp)), t) with
        ⟨p, v, s, -, read, stacked, -, -, -, age⟩ | ⟨-, e, failed⟩
      · rw [read, Except.ok.injEq, Reply.held.injEq, beq_iff_eq] at replied
        obtain ⟨rfl, stamp⟩ := replied
        -- A stacking with the stamp of the held array cannot be a new one.
        rcases age with old | new
        · rw [← same v old stamp.symm, stacked]
          rfl
        · omega
      · rw [failed] at replied
        cases replied
  | write target =>
    cases target with
    | predictor i =>
      rw [Ledger.Answers, run, nth_eq]
      cases t.store.ledger.nth? i with
      | none => exact ⟨_, rfl⟩
      | some o => exact ⟨_, rfl⟩
    | x => exact refused_write
    | y => exact refused_write
    | weight => exact refused_write
  | set i =>
    rw [Ledger.Answers, run, nth_eq]
    cases t.store.ledger.nth? i with
    | none => exact ⟨_, rfl⟩
    | some o => exact ⟨_, rfl⟩
  | summary => rfl

/-- Requests have the effects on a store that they have on the ledger. -/
theorem ledger_after (t : Session α) (rs : List (Request α)) :
    (t.after rs).store.ledger = rs.foldl Ledger.after t.store.ledger := by
  induction rs generalizing t with
  | nil => rfl
  | cons r rs ih =>
    rw [List.foldl_cons, ← (step_run t r).ledger_eq]
    exact ih (t.run r).2

theorem Holds.after (holds : t.Holds) (rs : List (Request α)) : (t.after rs).Holds := by
  induction rs generalizing t with
  | nil => exact holds
  | cons r rs ih => exact ih ((step_run t r).holds holds)

/-- **A store is an append-only log.** Whatever a store was told about the length of its predictors,
and whatever was asked of it: its observations are those of a ledger to which just the admissible
observations were appended, in order; their predictors have one length, at least one, which is what
the store was told, if anything; the next request is answered as the ledger says; and an append that
is not admissible changes nothing. -/
theorem refines_ledger (told : Option Width) (rs : List (Request α)) :
    let t := (Session.start (.empty told)).after rs
    let l := rs.foldl Ledger.after ⟨told, []⟩
    t.store.log = l.log ∧ t.store.width = l.width ∧
      (∀ o ∈ l.log, 1 ≤ o.x.length ∧ l.width = some (.whole o.x.length) ∧
        ∀ w, told = some w → w.admits o.x.length = true) ∧
      (∀ r, l.Answers (t.run r).1 r) ∧
      ∀ x y weight, l.admit? x y weight = none → (t.run (.add x y weight)).2 = t := by
  intro t l
  have same : t.store.ledger = l := ledger_after _ rs
  refine ⟨congrArg Ledger.log same, congrArg Ledger.width same, ?_, ?_, ?_⟩
  · intro o member
    exact (Ledger.uniform_foldl told rs).length member
  · intro r
    rw [← same]
    exact answers_run ((holds_start _).after rs) r
  · intro x y weight refused
    rw [← same] at refused
    rcases add_cases t.store x y weight with ⟨o, -, -, admitted, -⟩ | ⟨-, f, failed⟩
    · rw [admitted] at refused
      cases refused
    · rw [run, failed]

/-- A store may be told a length that it can take, but that no array can have as its number of
columns. As long as it is empty its arrays cannot be read. -/
theorem unreadable_of_widest :
    let told : Int := 1152921504606846976
    Width.ofValue? (.leaf (.whole told)) = .ok (some (.whole told)) ∧
      ¬ ∃ v, ((Session.start (.empty (some (.whole told)) : Store Float)).run .views).1 =
        .ok (.views v) := by
  refine ⟨rfl, ?_⟩
  rintro ⟨v, returned⟩
  cases returned

end Requests

end Session

end BalanceFit.Store
