import BalanceFit.Fitter
import BalanceFit.Proofs.Model.Evaluation
import BalanceFit.Proofs.Run.Effect

/-!
# The warm start of a generalized linear model

A fit of a generalized linear model begins at the least-squares coefficients for the linked
responses, with a zero for the intercept, and is Newton's method from there. What it prints and how
it keeps the linked observations makes no difference to its result.

## Main definitions

* `LeastSquares.regular` : least squares for regular systems
* `Family.linked` : an observation with its response linked
* `GeneralizedLinear.normalEquations` : the normal equations for the linked observations
* `GeneralizedLinear.start` : the coefficients that the iteration starts from
* `GeneralizedLinear.ridgeSystem` : the systems along the iteration
* `GeneralizedLinear.prepare` : what can keep a fit from its iteration

## Main statements

* `Store.leastSquares_eq` : the coefficients for a store are those for its observations
* `GeneralizedLinear.sameEffect_warmStart` : the warm start has the effect of returning the start
* `GeneralizedLinear.start_solve` : the result of a fit is that of the iteration from the start
-/

namespace BalanceFit

variable {α σ : Type}

namespace Store

variable {s : Store α} {o : Observation α}

/-- The least-squares coefficients for a store are those for its observations. -/
theorem leastSquares_eq [Scalar α] [LeastSquares α] (member : o ∈ s.log) :
    s.leastSquares = .ok (NormalEquations.ofSamples
      (s.log.map (Design.sample o.x.length false))).solution.toList := by
  obtain ⟨stamp, stacked⟩ := views_of_columns? (columns?_of_mem member)
  have nonempty : s.log.isEmpty = false := by
    rw [List.isEmpty_eq_false_iff]
    exact List.ne_nil_of_mem member
  rw [leastSquares, nonempty, stacked, ← Views.samples_stack stamp o.x.length]
  rfl

end Store

/-- The store of a log whose predictors have one length. -/
def Store.ofLog (p : Nat) (log : List (Observation α))
    (uniform : ∀ o ∈ log, 1 ≤ o.x.length ∧ o.x.length = p) : Store α where
  width := some (.whole p)
  log := log
  cache := none
  built := 0
  uniform := by
    intro o member
    obtain ⟨nonempty, length⟩ := uniform o member
    exact ⟨nonempty, by rw [length]⟩
  coherent := nofun

/-- Least squares for regular systems: each of them has a single solution, and elimination finds it.
For singular systems there is none. -/
@[reducible] def LeastSquares.regular [Scalar α] : LeastSquares α where
  minNorm? a b := (Elimination.solve? a (.column b)).map Mat.firstColumn

/-- There is memory for an array of one axis that is not longer than the limit. -/
theorem Grid.checkLengths_single {n : Nat} (fits : n ≤ memoryLimit) :
    checkLengths [(n : Int)] = .ok () := by
  have far : memoryLimit < Nat.pow 2 60 := by decide
  have few : volume ([n].filter (· ≠ 0)) < Nat.pow 2 60 := by
    by_cases zero : n = 0
    · subst zero
      decide
    · simp only [zero, ne_eq, not_false_eq_true, decide_true, List.filter_cons_of_pos,
        List.filter_nil, volume, List.foldr_cons, List.foldr_nil, Nat.mul_one]
      omega
  have nonneg : ¬ (n : Int) < 0 := by omega
  have some_left : ¬ Nat.pow 2 60 ≤ volume (([(n : Int)].map Int.toNat).filter (· ≠ 0)) :=
    Nat.not_le.2 few
  have enough : ¬ memoryLimit < volume ([(n : Int)].map Int.toNat) := by
    simpa [volume] using fits
  rw [checkLengths, if_neg some_left, if_neg enough]
  simp [nonneg]

/-- Bringing a list to a length gives the entries of the padded vector. -/
theorem Vec.toList_ofListPadded [Zero α] (n : Nat) (l : List α) :
    (Vec.ofListPadded n l).toList = resize n l := by
  refine List.ext_getElem? fun i => ?_
  rw [getElem?_resize, ofListPadded, toList_ofFn, List.getElem?_ofFn]
  split <;> rfl

namespace GeneralizedLinear

variable (g : GeneralizedLinear α) (config : Config α)

/-- Whether there is memory for the coefficients, as far as it is looked for. -/
def room (p : Nat) : Except Fault Unit :=
  if g.intercept then Grid.checkLengths [(g.dim p : Int)] else .ok ()

/-- What can keep a fit from its iteration: a verbosity that is no level, or coefficients that there
is no memory for. -/
def prepare (p : Nat) : Except Fault Unit := do
  let _ ← config.verbosity.atLeast 1
  g.room p

variable {g}

/-- There is room for coefficients up to the limit, and always if there is no intercept. -/
theorem room_of_le {p : Nat} (fits : g.dim p ≤ Grid.memoryLimit) : g.room p = .ok () := by
  rw [room]
  split
  · exact Grid.checkLengths_single fits
  · rfl

theorem room_of_no_intercept (without : g.intercept = false) (p : Nat) : g.room p = .ok () := by
  rw [room, without]
  rfl

/-- With room for the coefficients only the verbosity can keep a fit from its iteration. -/
theorem prepare_of_room {p : Nat} (room : g.room p = .ok ()) :
    g.prepare config p = (config.verbosity.atLeast 1).map fun _ => () := by
  rw [prepare, room]
  cases config.verbosity.atLeast 1 <;> rfl

theorem prepare_of_no_intercept (without : g.intercept = false) (p : Nat) {β : Type} (r : β) :
    (g.prepare config p).map (fun _ => r) = (config.verbosity.atLeast 1).map fun _ => r := by
  rw [prepare_of_room config (room_of_no_intercept without p)]
  cases config.verbosity.atLeast 1 <;> rfl

end GeneralizedLinear

variable [Scalar α]

/-- An observation with its response linked. -/
def Family.linked [Transcendental α] (f : Family α) (o : Observation α) : Observation α :=
  { o with y := f.link o.y }

omit [Scalar α] in
/-- A vector that was made a list and is made a vector again is the same one, although its size is
written in another way: what holds of one of them holds of the other one. -/
theorem Vec.ofList_toList_iff {n : Nat} (P : (m : Nat) → Vec α m → Prop) (v : Vec α n) :
    P v.toList.length (.ofList v.toList) ↔ P n v := by
  -- With a list in place of `v.toList` the size can be replaced by the length of the list.
  have key : ∀ l : List α, l = v.toList → (P l.length (.ofList l) ↔ P n v) := by
    intro l same
    obtain rfl : l.length = n := by rw [same, Vec.length_toList]
    have entries : Vec.ofList l = v := by
      ext i
      rw [Vec.ofList_apply, Fin.getElem_fin, List.getElem_of_eq same i.isLt]
      simp [Vec.toList, Vec.get]
    rw [entries]
  exact key _ rfl

/-- The iteration depends on the starting coefficients, and not on how their number is written. -/
theorem map_newton_ofList {model : Model (Act σ) α} {store : Store α} {config : Config α}
    {observer : Option (Observer σ α)} {n : Nat} (v : Vec α n) :
    FitResult.map Vec.toList <$> newton model store config observer (.ofList v.toList) =
      FitResult.map Vec.toList <$> newton model store config observer v :=
  (Vec.ofList_toList_iff (fun _ w =>
    FitResult.map Vec.toList <$> newton model store config observer w =
      FitResult.map Vec.toList <$> newton model store config observer v) v).2 rfl

namespace GeneralizedLinear

variable (g : GeneralizedLinear α)

/-- Without an intercept the coefficients of least squares have the length that is asked for. With
one they are brought to it, if there is memory. -/
theorem sameEffect_resize {p : Nat} {beta : List α} (length : beta.length = p) {level : Int}
    {line : Line α} :
    Run.SameEffect
      (do
        if (Dimension.count (g.dim p)).agrees beta.length then return beta
        Run.printFrom 2 (.level level) line
        Run.ofExcept ((Dimension.count (g.dim p)).length >>= (resize? · beta)) : Run σ α (List α))
      (Run.ofExcept ((g.room p).map fun _ => resize (g.dim p) beta)) := by
  rw [Dimension.agrees_count, room, dim, length]
  cases g.intercept with
  | false =>
    have same : resize p beta = beta := by rw [← length, resize_length_self]
    simp only [Bool.toNat_false, Nat.add_zero, beq_self_eq_true, if_true]
    change Run.SameEffect _ (pure (resize p beta))
    rw [same]
    exact Run.sameEffect_pure beta
  | true =>
    have longer : (p + 1 == p) = false := by simp
    simp only [Bool.toNat_true, longer, Bool.false_eq_true, if_false, if_true]
    refine Run.SameEffect.printFrom_bind ?_
    have brought : (Dimension.count ((p + 1 : Nat) : Int)).length >>= (resize? · beta) =
        (Grid.checkLengths [((p + 1 : Nat) : Int)]).map fun _ => resize (p + 1) beta := by
      change resize? ((p + 1 : Nat) : Int) beta = _
      rw [resize?]
      cases Grid.checkLengths [((p + 1 : Nat) : Int)] <;> rfl
    rw [brought]
    exact Run.sameEffect_ofExcept _

variable [Transcendental α] {f : Family α}

/-- The normal equations for the linked observations. -/
def normalEquations (f : Family α) (p : Nat) (log : List (Observation α)) : NormalEquations α p :=
  .ofSamples (log.map fun o => Design.sample p false (f.linked o))

/-- The coefficients that the iteration starts from: those of least squares, followed by a zero if
there is an intercept. -/
def start [LeastSquares α] (f : Family α) (p : Nat) (log : List (Observation α)) :
    Vec α (g.dim p) :=
  .ofListPadded (g.dim p) (normalEquations f p log).solution.toList

/-- The system of a log at coefficients, with the ridge. -/
def ridgeSystem (f : Family α) (config : Config α) (log : List (Observation α)) {n : Nat}
    (beta : Vec α n) : System α n :=
  (f.system (log.map (Design.sample n g.intercept)) beta).regularize config.epsilon beta

variable {g} {config : Config α} {store : Store α} {observer : Option (Observer σ α)}

theorem act_link (family : g.family = some f) (y : α) :
    Run.act (g.model.lift.link y) = (pure (some (f.link y)) : Run σ α (Option α)) := by
  rw [Model.link, Model.lift, model, family]
  rfl

theorem act_dim (o : Observation α) :
    Run.act (g.model.lift.dim o) =
      (pure (.count (g.dim o.x.length)) : Run σ α Dimension) :=
  rfl

/-- An observation that fits is appended with its response linked. -/
theorem addLinked_eq (family : g.family = some f) {s : Store α} {o : Observation α}
    (nonempty : 1 ≤ o.x.length)
    (agrees : ∀ w, s.width = some w → w.admits o.x.length = true) :
    Fitter.addLinked g.model.lift s o =
      (pure (s.push (f.linked o) nonempty agrees) : Run σ α (Store α)) := by
  have added : s.add (.ok (.ofList o.x)) (.ok (f.link o.y)) (.ok o.weight) =
      .ok (f.linked o, s.push (f.linked o) nonempty agrees) :=
    Store.add_ok ⟨rfl, nonempty⟩ agrees
  rw [Fitter.addLinked, act_link family, pure_bind]
  change Run.ofExcept (s.add _ _ _) >>= _ = _
  dsimp only
  rw [added]
  rfl

/-- Appending observations one after the other appends all of them. -/
theorem exists_foldlM_addLinked (family : g.family = some f) {p : Nat} (positive : 1 ≤ p)
    {l : List (Observation α)} (lengths : ∀ o ∈ l, o.x.length = p) {s : Store α}
    (width : s.width = some (.whole p)) :
    ∃ s' : Store α, l.foldlM (Fitter.addLinked g.model.lift) s = (pure s' : Run σ α (Store α)) ∧
      s'.log = s.log ++ l.map f.linked := by
  induction l generalizing s with
  | nil => exact ⟨s, rfl, by simp⟩
  | cons o l ih =>
    have length : o.x.length = p := lengths o List.mem_cons_self
    have nonempty : 1 ≤ o.x.length := by omega
    have agrees : ∀ w, s.width = some w → w.admits o.x.length = true := by
      intro w known
      rw [width, Option.some.injEq] at known
      simp [← known, Width.admits, length]
    obtain ⟨s', appended, log⟩ := ih (fun o' member => lengths o' (List.mem_cons_of_mem _ member))
      (s := s.push (f.linked o) nonempty agrees) (by simp [Store.push, Family.linked, length])
    refine ⟨s', ?_, ?_⟩
    · rw [List.foldlM_cons, addLinked_eq family nonempty agrees, pure_bind, appended]
    · change s'.log = s.log ++ ([f.linked o] ++ l.map f.linked)
      rw [log, ← List.append_assoc]
      rfl

variable [LeastSquares α]

/-- The warm start has the effect of returning the start, unless something keeps the fit from its
iteration. -/
theorem sameEffect_warmStart (family : g.family = some f) {o : Observation α}
    (member : o ∈ store.log) :
    Run.SameEffect (Fitter.warmStart ⟨g.model.lift, config, store⟩ : Run σ α (List α))
      (Run.ofExcept ((g.prepare config o.x.length).map fun _ =>
        (g.start f o.x.length store.log).toList)) := by
  have positive : 1 ≤ o.x.length := (store.uniform o member).1
  have width : store.width = some (.whole o.x.length) := (store.uniform o member).2
  have lengths : ∀ o' ∈ store.log, o'.x.length = o.x.length :=
    fun o' member' => Store.length_eq_of_mem member' member
  obtain ⟨s, appended, log⟩ := exists_foldlM_addLinked (σ := σ) family positive lengths
    (s := .empty store.width) width
  rw [Store.log_empty, List.nil_append] at log
  have linked : f.linked o ∈ s.log := by
    rw [log]
    exact List.mem_map_of_mem member
  have solved : s.leastSquares = .ok (normalEquations f o.x.length store.log).solution.toList := by
    rw [Store.leastSquares_eq linked, log, List.map_map]
    rfl
  rw [Fitter.warmStart]
  split
  case h_1 fresh =>
    change store.log = [] at fresh
    rw [fresh] at member
    cases member
  case h_2 first rest first_log =>
    have length : first.x.length = o.x.length := lengths first (by
      change store.log = first :: rest at first_log
      rw [first_log]
      exact List.mem_cons_self)
    dsimp only
    rw [act_dim, appended, length, prepare]
    simp only [pure_bind, solved, Run.ofExcept_ok]
    cases config.verbosity with
    | level level =>
      refine Run.SameEffect.printFrom_bind ?_
      rw [start, Vec.toList_ofListPadded]
      exact sameEffect_resize g (Vec.length_toList _)
    | incomparable => exact fun _ _ same => ⟨rfl, same⟩

/-- **The result of a fit is that of the iteration from the start**, unless something keeps the fit
from it. -/
theorem start_solve (family : g.family = some f) {o : Observation α} (member : o ∈ store.log)
    (u : σ) :
    (Run.start u (Fitter.solve ⟨g.model.lift, config, store⟩ observer)).1 =
      (g.prepare config o.x.length >>= fun _ =>
        (Run.start u (newton g.model.lift store config observer
          (g.start f o.x.length store.log))).1.map (FitResult.map Vec.toList)) := by
  rcases leveled : config.verbosity with level | _
  · have effect : Run.SameEffect
        (Fitter.solve ⟨g.model.lift, config, store⟩ observer : Run σ α (FitResult (List α) α))
        (Run.ofExcept ((g.prepare config o.x.length).map fun _ =>
          (g.start f o.x.length store.log).toList) >>= fun beta =>
            FitResult.map Vec.toList <$> newton g.model.lift store config observer (.ofList beta)) := by
      rw [Fitter.solve]
      simp only [leveled]
      refine Run.SameEffect.printFrom_bind ?_
      refine (sameEffect_warmStart family member).bind fun beta => ?_
      refine Run.SameEffect.printFrom_bind ?_
      rw [map_eq_pure_bind]
      refine (Newton.sameEffect_newton _ _ _ _ _).bind fun r => ?_
      refine Run.SameEffect.printFrom_bind (Run.SameEffect.printFrom_bind ?_)
      exact Run.sameEffect_pure _
    rw [effect.start_eq]
    cases g.prepare config o.x.length with
    | error e => rfl
    | ok _ =>
      change (Run.start u (pure _ >>= _)).1 = _
      rw [pure_bind, map_newton_ofList, Run.start_map]
      rfl
  · rw [prepare, leveled]
    change (Run.start u (Fitter.solve ⟨g.model.lift, config, store⟩ observer)).1 = .error .notANumber
    rw [Fitter.solve, leveled]
    rfl

/-- What the iteration from the start returns, the fit returns, unless something keeps it from its
iteration. -/
theorem start_solve_of_newton (family : g.family = some f) {o : Observation α}
    (member : o ∈ store.log) {u : σ} {r : FitResult (Vec α (g.dim o.x.length)) α}
    (returned : (Run.start u (newton g.model.lift store config observer
        (g.start f o.x.length store.log))).1 =
      if (g.start f o.x.length store.log).isFinite then (config.verbosity.atLeast 1).map fun _ => r
      else .ok r) :
    (Run.start u (Fitter.solve ⟨g.model.lift, config, store⟩ observer)).1 =
      (g.prepare config o.x.length).map fun _ => r.map Vec.toList := by
  rw [start_solve family member, returned, prepare]
  cases config.verbosity with
  | level level =>
    split <;> cases g.room o.x.length <;> rfl
  | incomparable => rfl

end GeneralizedLinear

end BalanceFit
