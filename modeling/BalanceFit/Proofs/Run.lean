import BalanceFit.Run

/-!
# What runs return

A run begins in a world, which holds a user's state and the trace, and ends in another one. If it
returns a value then so did all its parts, one after the other. The statements here take a run apart
in that way, so that no other proof has to open the monad.

## Main definitions

* `Run.Returns` : a run that begins in a world returns a value and ends in a world

## Main statements

* `Run.returns_bind_iff` : a run in two parts returns what the second part returns after the first
* `Run.returns_act_iff`, `Run.returns_printFrom_iff` : acts change the user's state alone, and
  printing changes the lines alone
-/

namespace BalanceFit.Run

variable {σ α β γ : Type}

/-- The run returns `b` if it begins in `w`, and ends in `w'`. -/
def Returns (r : Run σ α β) (w : World σ α) (b : β) (w' : World σ α) : Prop :=
  r.run.run w = (.ok b, w')

@[simp] theorem ofExcept_ok (b : β) : (ofExcept (.ok b) : Run σ α β) = pure b := rfl

/-- A run in two parts ends as its second part does, unless the first one fails. -/
theorem run_bind (x : Run σ α β) (f : β → Run σ α γ) (w : World σ α) :
    (x >>= f).run.run w =
      match x.run.run w with
      | (.ok b, w₁) => (f b).run.run w₁
      | (.error e, w₁) => (.error e, w₁) := by
  rw [ExceptT.run_bind, StateT.run_bind]
  rcases x.run.run w with ⟨_ | b, w₁⟩ <;> rfl

/-- A run from the beginning gives a result if it returns it in the world without a trace. -/
theorem start_eq_ok_iff {r : Run σ α β} {u : σ} {b : β} :
    (start u r).1 = .ok b ↔ ∃ w', Returns r ⟨u, #[], #[]⟩ b w' := by
  constructor
  · intro h
    exact ⟨(start u r).2, Prod.ext h rfl⟩
  · rintro ⟨w', h⟩
    exact congrArg Prod.fst h

/-- What is made of the result of a run is made of it after the run. -/
theorem run_map (r : Run σ α β) (f : β → γ) (w : World σ α) :
    (f <$> r).run.run w = ((r.run.run w).1.map f, (r.run.run w).2) := by
  rw [map_eq_pure_bind, run_bind]
  rcases r.run.run w with ⟨_ | b, w'⟩ <;> rfl

theorem start_map (u : σ) (r : Run σ α β) (f : β → γ) :
    (start u (f <$> r)).1 = (start u r).1.map f :=
  congrArg Prod.fst (run_map r f _)

theorem Returns.bind {x : Run σ α β} {f : β → Run σ α γ} {w w₁ w' : World σ α} {b : β} {c : γ}
    (first : Returns x w b w₁) (second : Returns (f b) w₁ c w') : Returns (x >>= f) w c w' := by
  rw [Returns, run_bind, first]
  exact second

/-- After a first part that returns, it is the second part that returns. -/
theorem Returns.bind_iff {x : Run σ α β} {f : β → Run σ α γ} {w w₁ w' : World σ α} {b : β} {c : γ}
    (first : Returns x w b w₁) : Returns (x >>= f) w c w' ↔ Returns (f b) w₁ c w' := by
  rw [Returns, run_bind, first, Returns]

theorem returns_bind_iff {x : Run σ α β} {f : β → Run σ α γ} {w w' : World σ α} {c : γ} :
    Returns (x >>= f) w c w' ↔ ∃ b w₁, Returns x w b w₁ ∧ Returns (f b) w₁ c w' := by
  constructor
  · intro h
    rw [Returns, run_bind] at h
    split at h
    case h_1 b w₁ first => exact ⟨b, w₁, first, h⟩
    case h_2 => cases h
  · rintro ⟨b, w₁, first, second⟩
    exact first.bind second

@[simp] theorem returns_pure_iff {b c : β} {w w' : World σ α} :
    Returns (pure b : Run σ α β) w c w' ↔ b = c ∧ w = w' := by
  change ((Except.ok b : Except Fault β), w) = (.ok c, w') ↔ _
  rw [Prod.mk.injEq, Except.ok.injEq]

@[simp] theorem not_returns_throw {f : Fault} {b : β} {w w' : World σ α} :
    ¬ Returns (throw f : Run σ α β) w b w' := by
  intro h
  cases h

@[simp] theorem returns_ofExcept_iff {x : Except Fault β} {b : β} {w w' : World σ α} :
    Returns (ofExcept x : Run σ α β) w b w' ↔ x = .ok b ∧ w = w' := by
  change (x, w) = (.ok b, w') ↔ _
  rw [Prod.mk.injEq]

@[simp] theorem returns_map_iff {x : Run σ α β} {f : β → γ} {w w' : World σ α} {c : γ} :
    Returns (f <$> x) w c w' ↔ ∃ b, Returns x w b w' ∧ f b = c := by
  rw [map_eq_pure_bind, returns_bind_iff]
  constructor
  · rintro ⟨b, w₁, hx, h⟩
    obtain ⟨rfl, rfl⟩ := returns_pure_iff.1 h
    exact ⟨b, hx, rfl⟩
  · rintro ⟨b, hx, rfl⟩
    exact ⟨b, w', hx, returns_pure_iff.2 ⟨rfl, rfl⟩⟩

/-- An act changes the user's state, and leaves the trace as it is. -/
theorem returns_act_iff {a : Act σ β} {b : β} {w w' : World σ α} :
    Returns (act a) w b w' ↔ ∃ u, a.run.run w.user = (.ok b, u) ∧ w' = { w with user := u } := by
  change ((a.run.run w.user).1, { w with user := (a.run.run w.user).2 }) = (.ok b, w') ↔ _
  rw [Prod.mk.injEq]
  constructor
  · rintro ⟨h, rfl⟩
    exact ⟨_, Prod.ext h rfl, rfl⟩
  · rintro ⟨u, h, rfl⟩
    rw [h]
    exact ⟨rfl, rfl⟩

theorem returns_note_iff {visit : Visit α} {w w' : World σ α} :
    Returns (note visit) w () w' ↔ w' = { w with visits := w.visits.push visit } := by
  change (Except.ok (), { w with visits := w.visits.push visit }) = (.ok (), w') ↔ _
  rw [Prod.mk.injEq]
  exact ⟨fun h => h.2.symm, fun h => ⟨rfl, h.symm⟩⟩

/-- A line is printed, if at all, behind the other lines. -/
theorem returns_printFrom_iff {k : Int} {v : Verbosity} {line : Line α} {w w' : World σ α} :
    Returns (printFrom k v line) w () w' ↔
      ∃ b, v.atLeast k = .ok b ∧
        w' = if b then { w with lines := w.lines.push line } else w := by
  rw [printFrom, returns_bind_iff]
  constructor
  · rintro ⟨b, w₁, h, printed⟩
    obtain ⟨comparable, rfl⟩ := returns_ofExcept_iff.1 h
    refine ⟨b, comparable, ?_⟩
    cases b with
    | false => exact (returns_pure_iff.1 printed).2.symm
    | true => exact (Prod.mk.inj printed).2.symm
  · rintro ⟨b, comparable, rfl⟩
    refine ⟨b, w, returns_ofExcept_iff.2 ⟨comparable, rfl⟩, ?_⟩
    cases b <;> rfl

/-- The two worlds differ in their lines alone. -/
structure UpToLines (w w' : World σ α) : Prop where
  user : w'.user = w.user
  visits : w'.visits = w.visits

theorem UpToLines.trans {w w' w'' : World σ α} (first : UpToLines w w')
    (second : UpToLines w' w'') : UpToLines w w'' :=
  ⟨second.user.trans first.user, second.visits.trans first.visits⟩

/-- Printing changes the lines alone. -/
theorem upToLines_of_printFrom {k : Int} {v : Verbosity} {line : Line α} {w w' : World σ α}
    {x : Unit} (printed : Returns (printFrom k v line) w x w') : UpToLines w w' := by
  obtain ⟨b, -, rfl⟩ := returns_printFrom_iff.1 printed
  cases b <;> exact ⟨rfl, rfl⟩

/-- Printing takes a verbosity that is a level, -/
theorem level_of_printFrom {k : Int} {v : Verbosity} {line : Line α} {w w' : World σ α} {x : Unit}
    (printed : Returns (printFrom k v line) w x w') : ∃ level, v = .level level := by
  obtain ⟨b, comparable, -⟩ := returns_printFrom_iff.1 printed
  cases v with
  | level level => exact ⟨level, rfl⟩
  | incomparable => cases comparable

/-- and never fails for one that is. -/
theorem exists_printFrom (k level : Int) (line : Line α) (w : World σ α) :
    ∃ w', Returns (printFrom k (.level level) line) w () w' :=
  ⟨_, returns_printFrom_iff.2 ⟨_, rfl, rfl⟩⟩

end BalanceFit.Run
