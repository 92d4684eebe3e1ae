import BalanceFit.Proofs.Store.Extend
import BalanceFit.Proofs.Store.LeastSquares
import BalanceFit.Settings

/-!
# Reconciling lengths

A warm start has as many coefficients as the model asks for, whatever the length of the predictors.
The first ones are those that least squares gives for the linked observations, as far as there are
any; the others are zero. To be brought to one length and then to another is to be brought to the
second one, unless an entry that is wanted there was dropped on the way.

## Main definitions

* `Model.Links` : the observations with their responses linked one after the other
* `Observation.row` : the row of data that makes an observation
* `Fitter.reconcile` : the end of a warm start

## Main statements

* `resize_resize_iff` : which lengths in between make no difference
* `Grid.resize?_ofList` : both ways to bring a list to a length agree
* `Fitter.warmStart_reconciled` : what a warm start returns, and when it returns
-/

namespace BalanceFit

variable {α σ : Type}

section Resize

variable [Zero α]

/-- Of a list that is brought to length `n`, the first `n` entries matter. -/
theorem resize_eq_iff {n : Nat} {l l' : List α} :
    resize n l = resize n l' ↔ ∀ i, i < n → l.getD i 0 = l'.getD i 0 := by
  constructor
  · intro same i wanted
    have entry := congrArg (·[i]?) same
    simp only [getElem?_resize, if_pos wanted, Option.some.injEq] at entry
    exact entry
  · intro same
    refine List.ext_getElem? fun i => ?_
    rw [getElem?_resize, getElem?_resize]
    split
    case isTrue wanted => rw [same i wanted]
    case isFalse => rfl

/-- A length in between makes no difference exactly if what is dropped for it is zero. -/
theorem resize_resize_iff {m n : Nat} {l : List α} :
    resize n (resize m l) = resize n l ↔ ∀ i, m ≤ i → i < n → l.getD i 0 = 0 := by
  rw [resize_eq_iff]
  refine forall_congr' fun i => ?_
  rw [getD_resize]
  split
  case isTrue kept => exact iff_of_true (fun _ => rfl) fun dropped => absurd kept (by omega)
  case isFalse dropped =>
    have apart : m ≤ i := Nat.not_lt.1 dropped
    exact ⟨fun same _ wanted => (same wanted).symm, fun zero wanted => (zero apart wanted).symm⟩

/-- It makes none if it leaves room for all entries that are wanted in the end. -/
theorem resize_resize {m n : Nat} {l : List α} (enough : min n l.length ≤ m) :
    resize n (resize m l) = resize n l := by
  refine resize_resize_iff.2 fun i dropped wanted => ?_
  have beyond : l.length ≤ i := by omega
  rw [List.getD_eq_getElem?_getD, List.getElem?_eq_none beyond]
  rfl

theorem take_resize (n : Nat) (l : List α) :
    (resize n l).take (min n l.length) = l.take (min n l.length) := by
  rw [resize, List.take_left' List.length_take]
  simp

theorem drop_resize (n : Nat) (l : List α) :
    (resize n l).drop (min n l.length) = List.replicate (n - l.length) 0 := by
  rw [resize, List.drop_left' List.length_take]

/-- For a list taken as an array it is the same to be brought to a length. -/
theorem Grid.resize?_ofList (n : Int) (l : List α) :
    Grid.resize? n (.ofList l) = BalanceFit.resize? n l := by
  rw [Grid.resize?, BalanceFit.resize?, BalanceFit.resize?]
  cases checkLengths [n] with
  | error f => rfl
  | ok _ =>
    -- The first `k` entries fill their place, and what is left of `n` zeros follows.
    let k := min n.toNat l.length
    have few : k ≤ l.length := Nat.min_le_right _ _
    have head : (⟨[min k l.length], l.take (min k l.length * volume [])⟩ : Grid α) =
        ⟨[k], l.take k⟩ := by
      rw [Nat.min_eq_left few]
      simp [volume]
    have full : (l.take k).length = volume [k] := by
      rw [List.length_take, Nat.min_eq_left few]
      exact (Nat.mul_one k).symm
    have filled : (⟨[k], l.take k⟩ : Grid α).fill? [k] = some ⟨[k], l.take k⟩ := by
      rw [fill?, trimShape, if_neg (by simp)]
      exact spread?_self full
    dsimp only [bind, Except.bind, ofList]
    rw [head, filled]
    have zeros : (resize n.toNat ([] : List α)).drop k = List.replicate (n.toNat - l.length) 0 := by
      simp [resize, k]
      omega
    have entries : l.take k = l.take n.toNat := by
      simp [k]
    change Except.ok (l.take k ++ _) = _
    rw [zeros, entries, resize]
    rfl

/-- A length in between that leaves room for all entries that are wanted in the end takes memory,
and makes no other difference. -/
theorem Grid.resize?_bind_resize? {m n : Nat} {l : List α} (enough : min n l.length ≤ m) :
    (Grid.resize? m (.ofList l) >>= fun c => Grid.resize? n (.ofList c)) =
      (checkLengths [(m : Int)] >>= fun _ => Grid.resize? n (.ofList l)) := by
  simp only [resize?_ofList, BalanceFit.resize?]
  cases checkLengths [(m : Int)] with
  | error f => rfl
  | ok _ =>
    change (checkLengths [(n : Int)] >>= fun _ => .ok (resize n (resize m l))) =
      (checkLengths [(n : Int)] >>= fun _ => .ok (resize n l))
    rw [resize_resize enough]

/-- The length that a list has leaves it as it is. -/
theorem Grid.resize?_length (l : List α) :
    Grid.resize? l.length (.ofList l) = (checkLengths [(l.length : Int)]).map fun _ => l := by
  rw [resize?_ofList, BalanceFit.resize?, Int.toNat_natCast, resize_length_self]
  rfl

end Resize

/-- The responses of observations are linked one after the other. The model keeps a state, so what
an observation is linked to may depend on the ones before it. -/
inductive Model.Links (model : Model (Act σ) α) :
    σ → List (Observation α) → List (Observation α) → σ → Prop
  | nil (u : σ) : Links model u [] [] u
  | cons {u u₁ u₂ : σ} {o : Observation α} {y : α} {log linked : List (Observation α)}
      (link : (model.link o.y).run.run u = (.ok (some y), u₁))
      (rest : Links model u₁ log linked u₂) :
      Links model u (o :: log) ({ o with y := y } :: linked) u₂

/-- The row of data that makes an observation. -/
def Observation.row (o : Observation α) : Grid α × α × α := (.ofList o.x, o.y, o.weight)

namespace Model.Links

variable {model : Model (Act σ) α} {u u' : σ} {log linked : List (Observation α)}

/-- If the link returns numbers, the responses can be linked from every state. -/
theorem exists_of_numbers
    (numbers : ∀ o ∈ log, ∀ u, ∃ y u', (model.link o.y).run.run u = (.ok (some y), u')) (u : σ) :
    ∃ linked u', model.Links u log linked u' := by
  induction log generalizing u with
  | nil => exact ⟨[], u, .nil u⟩
  | cons o log ih =>
    obtain ⟨y, u₁, link⟩ := numbers o List.mem_cons_self u
    obtain ⟨linked, u₂, rest⟩ := ih (fun o' member => numbers o' (List.mem_cons_of_mem o member)) u₁
    exact ⟨_, u₂, .cons link rest⟩

/-- Predictors keep their length. -/
theorem length_eq (links : model.Links u log linked u') {p : Nat}
    (lengths : ∀ o ∈ log, o.x.length = p) : ∀ o ∈ linked, o.x.length = p := by
  induction links with
  | nil => exact lengths
  | cons link rest ih =>
    rw [List.forall_mem_cons] at lengths ⊢
    exact ⟨lengths.1, ih lengths.2⟩

/-- Where the rows of the linked observations can be appended, the warm start appends them. -/
theorem returns_foldlM (links : model.Links u log linked u') {s s' : Store α}
    (appended : s.addAll (linked.map Observation.row) = (.ok (), s')) {w : World σ α}
    (user : w.user = u) :
    Run.Returns (log.foldlM (Fitter.addLinked model) s) w s' { w with user := u' } := by
  -- The linked observations and the warm start's loop go through the log in the same steps.
  induction links generalizing s w with
  | nil u =>
    rw [← user]
    exact Run.returns_pure_iff.2 ⟨(Prod.mk.inj appended).2, rfl⟩
  | @cons u u₁ u₂ o y log linked link rest ih =>
    rw [List.map_cons, Observation.row, Store.addAll] at appended
    cases added : s.add (.ok (.ofList o.x)) (.ok y) (.ok o.weight) with
    | error f =>
      -- A row that was refused would have ended the appending with its fault.
      rw [added] at appended
      cases congrArg Prod.fst appended
    | ok r =>
      rw [added] at appended
      have one : Run.Returns (Fitter.addLinked model s o) w r.2 { w with user := u₁ } := by
        have acted : Run.Returns (Run.act (model.link o.y)) w (some y) { w with user := u₁ } :=
          Run.returns_act_iff.2 ⟨u₁, by rw [user, link], rfl⟩
        exact acted.bind ((Run.returns_ofExcept_iff.2 ⟨added, rfl⟩).bind
          (Run.returns_pure_iff.2 ⟨rfl, rfl⟩))
      rw [List.foldlM_cons]
      exact one.bind (ih appended rfl)

end Model.Links

/-- Linear least squares takes all observations, whether it is told the length of the predictors or
not, and finds as many coefficients. -/
theorem Store.exists_leastSquares [Scalar α] [LeastSquares α] {log : List (Observation α)}
    (some_left : log ≠ []) {p : Nat} (positive : 1 ≤ p) (lengths : ∀ o ∈ log, o.x.length = p) :
    ∃ least, least.length = p ∧ ∀ told : Option Width,
      (∀ w, told = some w → w.admits p = true) →
        ∃ s, (empty told).addAll (log.map Observation.row) = (.ok (), s) ∧
          s.leastSquares = .ok least := by
  let e := NormalEquations.ofSamples (log.map (Design.sample p false))
  refine ⟨e.solution.toList, Vec.length_toList _, fun told admits => ?_⟩
  obtain ⟨s, appended⟩ : ∃ s, (empty told).addAll (log.map Observation.row) = (.ok (), s) :=
    addAll_of_admits positive admits (List.forall_mem_map.2 fun o member => ⟨rfl, lengths o member⟩)
  have log_eq : s.log = log := by
    have accepted : ((empty told).addAll (log.map Observation.row)).1 = .ok () := by rw [appended]
    have rows := log_addAll accepted
    rw [appended, List.map_map] at rows
    exact rows.trans (List.map_id log)
  obtain ⟨o, member⟩ := List.exists_mem_of_ne_nil log some_left
  refine ⟨s, appended, ?_⟩
  rw [leastSquares_eq (o := o) (by rwa [log_eq]), lengths o member, log_eq]

namespace Fitter

open Run

variable {w w' : World σ α} {d : Nat} {least beta : List α}

/-- What the warm start does with the coefficients of least squares. -/
def reconcile [Zero α] (verbosity : Verbosity) (dim : Dimension) (least : List α) :
    Run σ α (List α) := do
  Run.printFrom 2 verbosity (.warmStart least)
  if dim.agrees least.length then return least
  Run.printFrom 2 verbosity (.resize least.length dim)
  Run.ofExcept (dim.length >>= (resize? · least))

/-- Coefficients that are reconciled are those of least squares, brought to the length. -/
theorem of_returns_reconcile [Zero α] {verbosity : Verbosity}
    (returned : Returns (reconcile verbosity (.count d) least) w beta w') :
    (∃ level, verbosity = .level level) ∧
      (d = least.length ∨ Grid.checkLengths [(d : Int)] = .ok ()) ∧
        beta = resize d least ∧ w'.user = w.user := by
  rw [reconcile, returns_bind_iff] at returned
  obtain ⟨_, w₁, first, returned⟩ := returned
  have level := level_of_printFrom first
  have user : w₁.user = w.user := (upToLines_of_printFrom first).user
  rw [Dimension.agrees_count] at returned
  split at returned
  case isTrue same =>
    obtain ⟨rfl, rfl⟩ := returns_pure_iff.1 returned
    rw [beq_iff_eq] at same
    exact ⟨level, .inl same, by rw [same, resize_length_self], user⟩
  case isFalse =>
    obtain ⟨_, w₂, second, returned⟩ := returns_bind_iff.1 returned
    obtain ⟨brought, rfl⟩ := returns_ofExcept_iff.1 returned
    obtain ⟨_, room, rest⟩ := exists_of_bind_eq_ok (x := Grid.checkLengths [(d : Int)]) brought
    have user' : w₂.user = w.user := (upToLines_of_printFrom second).user.trans user
    exact ⟨level, .inr room, (Except.ok.inj rest).symm, user'⟩

/-- Lengths are reconciled at every level of verbosity, if there is memory for the length or it is
the one already. -/
theorem returns_reconcile [Zero α] {level : Int}
    (room : d = least.length ∨ Grid.checkLengths [(d : Int)] = .ok ()) (w : World σ α) :
    ∃ w', Returns (reconcile (.level level) (.count d) least) w (resize d least) w' := by
  obtain ⟨w₁, first⟩ := exists_printFrom 2 level (.warmStart least) w
  rw [reconcile]
  simp only [first.bind_iff, Dimension.agrees_count]
  by_cases same : d = least.length
  · subst same
    exact ⟨w₁, by simp [resize_length_self]⟩
  · obtain ⟨w₂, second⟩ := exists_printFrom 2 level (.resize least.length (.count d)) w₁
    have brought : resize? (d : Int) least = .ok (resize d least) := by
      rw [resize?, room.resolve_left same]
      rfl
    rw [if_neg (by simpa using same)]
    exact ⟨w₂, second.bind (returns_ofExcept_iff.2 ⟨brought, rfl⟩)⟩

variable [Scalar α] [LeastSquares α]

/-- A warm start reconciles what least squares gives for the linked observations. -/
theorem returns_warmStart_iff {f : Fitter σ α} {o : Observation α}
    {rest linked : List (Observation α)} {u u' : σ} {s : Store α} (log : f.store.log = o :: rest)
    (dim : (f.model.dim o).run.run w.user = (.ok (.count d), u))
    (links : f.model.Links u f.store.log linked u')
    (appended : (Store.empty f.store.width).addAll (linked.map Observation.row) = (.ok (), s))
    (solved : s.leastSquares = .ok least) :
    Returns f.warmStart w beta w' ↔
      Returns (reconcile f.config.verbosity (.count d) least) { w with user := u' } beta w' := by
  have opened : f.warmStart = (do
      let dim ← Run.act (f.model.dim o)
      let linked ← f.store.log.foldlM (addLinked f.model) (.empty f.store.width)
      let least ← Run.ofExcept linked.leastSquares
      reconcile f.config.verbosity dim least) := by
    rw [warmStart]
    simp only [log]
    rfl
  have asked : Returns (Run.act (f.model.dim o)) w (.count d) { w with user := u } :=
    returns_act_iff.2 ⟨u, dim, rfl⟩
  have solves : Returns (Run.ofExcept s.leastSquares) { w with user := u' } least _ :=
    returns_ofExcept_iff.2 ⟨solved, rfl⟩
  rw [opened, asked.bind_iff, (links.returns_foldlM appended rfl).bind_iff, solves.bind_iff]

/-- If the model asks for a number of coefficients and links responses to numbers, a warm start gets
as far as reconciling. The linear fit takes all linked observations, whether it is told the length
of the predictors or not. -/
theorem exists_reconcile {f : Fitter σ α} {o : Observation α} {rest : List (Observation α)}
    (log : f.store.log = o :: rest)
    (dims : ∀ u, ∃ u', (f.model.dim o).run.run u = (.ok (.count d), u'))
    (numbers : ∀ o' ∈ f.store.log, ∀ u, ∃ y u',
      (f.model.link o'.y).run.run u = (.ok (some y), u')) (w : World σ α) :
    ∃ u linked u' least, (f.model.dim o).run.run w.user = (.ok (.count d), u) ∧
      f.model.Links u f.store.log linked u' ∧
      (∀ told : Option Width, told = none ∨ told = f.store.width →
        ∃ s, (Store.empty told).addAll (linked.map Observation.row) = (.ok (), s) ∧
          s.leastSquares = .ok least) ∧
      least.length = o.x.length ∧ ∀ beta w', Returns f.warmStart w beta w' ↔
        Returns (reconcile f.config.verbosity (.count d) least) { w with user := u' } beta w' := by
  have member : o ∈ f.store.log := by
    rw [log]
    exact List.mem_cons_self
  obtain ⟨nonempty, width⟩ := f.store.uniform o member
  obtain ⟨u, dim⟩ := dims w.user
  obtain ⟨linked, u', links⟩ := Model.Links.exists_of_numbers numbers u
  have lengths : ∀ o' ∈ linked, o'.x.length = o.x.length :=
    links.length_eq fun o' member' => Store.length_eq_of_mem member' member
  have some_left : linked ≠ [] := by
    rintro rfl
    rw [log] at links
    cases links
  obtain ⟨least, length, solves⟩ := Store.exists_leastSquares some_left nonempty lengths
  have fits : ∀ told : Option Width, told = none ∨ told = f.store.width →
      ∃ s, (Store.empty told).addAll (linked.map Observation.row) = (.ok (), s) ∧
        s.leastSquares = .ok least := by
    intro told known
    refine solves told fun w same => ?_
    rcases known with rfl | rfl
    · cases same
    · rw [← Option.some.inj (width.symm.trans same)]
      exact beq_self_eq_true _
  obtain ⟨s, appended, solved⟩ := fits f.store.width (.inr rfl)
  exact ⟨u, linked, u', least, dim, links, fits, length,
    fun beta w' => returns_warmStart_iff log dim links appended solved⟩

/-- **Lengths are reconciled.** Let a fitter have observations, and let its model ask for `d`
coefficients and link responses to numbers. A warm start returns unless the verbosity is no level,
or unless there is no memory for a length that is not that of the predictors. The linear fit takes
all linked observations, whether it is told the length of the predictors or not; what the warm start
returns are `d` coefficients, which begin as those of the linear fit do and continue with zeros.

A length in between that leaves room for the entries that are wanted makes no difference, as long as
there is memory for it. The length that an array has leaves it as it is. In any case the array that
is given is a value, and stays as it was: what is returned is another one. -/
theorem warmStart_reconciled (f : Fitter σ α) {o : Observation α} {rest : List (Observation α)}
    (log : f.store.log = o :: rest)
    (dims : ∀ u, ∃ u', (f.model.dim o).run.run u = (.ok (.count d), u'))
    (numbers : ∀ o' ∈ f.store.log, ∀ u, ∃ y u',
      (f.model.link o'.y).run.run u = (.ok (some y), u')) :
    (∀ w, (∃ beta w', Returns f.warmStart w beta w') ↔
      (∃ level, f.config.verbosity = .level level) ∧
        (d = o.x.length ∨ Grid.checkLengths [(d : Int)] = .ok ())) ∧
    (∀ w beta w', Returns f.warmStart w beta w' →
      ∃ u linked least, (f.model.dim o).run.run w.user = (.ok (.count d), u) ∧
        f.model.Links u f.store.log linked w'.user ∧
        (∀ told : Option Width, told = none ∨ told = f.store.width →
          ∃ s, (Store.empty told).addAll (linked.map Observation.row) = (.ok (), s) ∧
            s.leastSquares = .ok least) ∧
        least.length = o.x.length ∧ beta.length = d ∧
        beta.take (min d o.x.length) = least.take (min d o.x.length) ∧
        beta.drop (min d o.x.length) = List.replicate (d - o.x.length) 0) ∧
    (∀ (b : List α) (m n : Nat), min n b.length ≤ m →
      (Grid.resize? m (.ofList b) >>= fun c => Grid.resize? n (.ofList c)) =
        (Grid.checkLengths [(m : Int)] >>= fun _ => Grid.resize? n (.ofList b))) ∧
    ∀ b : List α, Grid.resize? b.length (.ofList b) =
      (Grid.checkLengths [(b.length : Int)]).map fun _ => b := by
  refine ⟨fun w => ?_, fun w beta w' returned => ?_, fun b m n => Grid.resize?_bind_resize?,
    Grid.resize?_length⟩
  · obtain ⟨u, linked, u', least, -, -, -, length, reconciles⟩ :=
      exists_reconcile log dims numbers w
    simp only [reconciles, ← length]
    constructor
    · rintro ⟨beta, w', returned⟩
      obtain ⟨level, room, -⟩ := of_returns_reconcile returned
      exact ⟨level, room⟩
    · rintro ⟨⟨level, leveled⟩, room⟩
      rw [leveled]
      exact ⟨_, returns_reconcile room _⟩
  · obtain ⟨u, linked, u', least, dim, links, fits, length, reconciles⟩ :=
      exists_reconcile log dims numbers w
    obtain ⟨-, -, rfl, user⟩ := of_returns_reconcile ((reconciles beta w').1 returned)
    rw [← length]
    exact ⟨u, linked, least, dim, user ▸ links, fits, rfl, length_resize d least,
      take_resize d least, drop_resize d least⟩

section Counting

/-- A model that asks for `d` coefficients, and adds to every response how many responses it has
linked before. -/
def countingModel (d : Nat) : Model (Act Nat) ℚ where
  name := "Counting"
  dim? := some fun _ => return .count d
  link? := some fun y => do
    let k ← getModify (· + 1)
    return some (y + k)
  evaluate? := some fun _ _ _ s => return s

/-- One predictor, and two observations of it. -/
def twoObservations : Store ℚ := .ofLog 1 [⟨[1], 2, 1⟩, ⟨[2], 3, 1⟩] (by simp)

/-- The linked responses are two and four. Behind the coefficient of the linear fit for them, two
are missing of the three that the model asks for. -/
theorem warmStart_reconciled_counting :
    let _ : LeastSquares ℚ := .regular
    let f : Fitter Nat ℚ := ⟨countingModel 3, ⟨0, 0, 0, 0, 5, .level 2, false⟩, twoObservations⟩
    (Run.start 0 f.warmStart).1 = .ok [2, 0, 0] ∧
      ∃ beta w', Returns f.warmStart ⟨0, #[], #[]⟩ beta w' ∧ beta.length = 3 ∧
        beta.drop 1 = [0, 0] := by
  intro _ f
  have room : Grid.checkLengths [((3 : Nat) : Int)] = .ok () := by decide
  obtain ⟨returns, entries, -⟩ := warmStart_reconciled f (o := ⟨[1], 2, 1⟩) (d := 3) rfl
    (fun u => ⟨u, rfl⟩) (fun o' _ u => ⟨_, u + 1, rfl⟩)
  obtain ⟨beta, w', returned⟩ := (returns ⟨0, #[], #[]⟩).2 ⟨⟨2, rfl⟩, .inr room⟩
  obtain ⟨_, _, _, -, -, -, -, length, -, zeros⟩ := entries _ _ _ returned
  exact ⟨by decide +kernel, beta, w', returned, length, zeros⟩

/-- A config is accepted with a verbosity that is no level, and a model may ask for more
coefficients than an array can have. In both cases there is no warm start, and an array of that
length cannot stand in between, either. -/
theorem warmStart_unreconciled :
    let _ : LeastSquares ℚ := .regular
    let config (v : Verbosity) : Config ℚ := ⟨0, 0, 0, 0, 5, v, false⟩
    let far : Nat := Nat.pow 2 60
    (∀ (d : Nat) (o : Observation ℚ) (u : Nat),
      ((countingModel d).dim o).run.run u = (.ok (.count d), u) ∧
        ((countingModel d).link o.y).run.run u = (.ok (some (o.y + u)), u + 1)) ∧
      Settings.verbosity (.leaf .nothing) = .incomparable ∧
      (config .incomparable).accepted = true ∧
      (Run.start 0 (warmStart ⟨countingModel 1, config .incomparable, twoObservations⟩)).1 =
        .error .notANumber ∧
      (Run.start 0 (warmStart ⟨countingModel far, config (.level 0), twoObservations⟩)).1 =
        .error .shapeMismatch ∧
      Grid.resize? 1 (.ofList [(1 : ℚ)]) = .ok [1] ∧
      (Grid.resize? far (.ofList [(1 : ℚ)]) >>= fun c => Grid.resize? 1 (.ofList c)) =
        .error .shapeMismatch :=
  ⟨fun _ _ _ => ⟨rfl, rfl⟩, rfl, by decide +kernel, by decide +kernel, by decide +kernel,
    by decide +kernel, by decide +kernel⟩

end Counting

end Fitter

end BalanceFit
