import BalanceFit.Proofs.Run.Relation

/-!
# What is printed at which level

Every line belongs to a level of verbosity, and is printed from that level on. So a run at some
level can be compared with one at the highest level, which prints everything: the lines of the first
run are an excerpt of the lines of the other one. This is a relation between worlds that says
nothing of the user's state or of what an observer was shown.

## Main definitions

* `Line.level` : the level from which on a line is printed
* `Line.number?`, `Line.isStep` : which lines count evaluations and steps
* `World.numbers`, `World.stepLines` : what the lines of a world count
* `Run.Excerpt` : the lines of a world are those of another one up to a level
* `World.Adds`, `Run.OnlyPrints` : what adds nothing but lines of some kind to the trace

## Main statements

* `Run.related_printFrom_level` : printing a line from its level on keeps excerpts
* `Run.OnlyPrints.bind` : a run in two parts only prints what its parts print
-/

namespace BalanceFit

variable {α σ β γ : Type}

namespace Line

/-- From which level of verbosity on a line is printed. -/
def level : Line α → Int
  | verdict _ => 0
  | message _ => 0
  | warmStartPhase _ => 1
  | iterationPhase _ _ => 1
  | iteration _ _ => 1
  | step _ => 1
  | warmStart _ => 2
  | resize _ _ => 2
  | coefficients _ => 2
  | balance _ => 2

/-- The number of the evaluation that a line counts. -/
def number? : Line α → Option Nat
  | iteration k _ => some k
  | _ => none

/-- Whether a line tells of a Newton step. -/
def isStep : Line α → Bool
  | step _ => true
  | _ => false

theorem level_nonneg (line : Line α) : 0 ≤ line.level := by
  cases line <;> simp [level]

theorem level_le_two (line : Line α) : line.level ≤ 2 := by
  cases line <;> simp [level]

/-- The line counts neither an evaluation nor a step. -/
def Uncounted (line : Line α) : Prop := line.number? = none ∧ line.isStep = false

end Line

/-- The numbers of the evaluations that were reported. -/
def World.numbers (w : World σ α) : List Nat := w.lines.toList.filterMap Line.number?

/-- How many steps were reported. -/
def World.stepLines (w : World σ α) : Nat := w.lines.toList.countP Line.isStep

/-- From one world to the other some lines of a kind were printed, and nothing else was traced. -/
structure World.Adds (P : Line α → Prop) (w w' : World σ α) : Prop where
  visits : w'.visits = w.visits
  lines : ∃ added, w'.lines.toList = w.lines.toList ++ added ∧ ∀ line ∈ added, P line

namespace World.Adds

variable {P : Line α → Prop} {w w' w'' : World σ α}

theorem nothing (visits : w'.visits = w.visits) (lines : w'.lines = w.lines) : w.Adds P w' :=
  ⟨visits, [], by rw [lines, List.append_nil], nofun⟩

theorem trans (first : w.Adds P w') (second : w'.Adds P w'') : w.Adds P w'' := by
  obtain ⟨visits, added, lines, kind⟩ := first
  obtain ⟨visits', added', lines', kind'⟩ := second
  refine ⟨visits'.trans visits, added ++ added', ?_, ?_⟩
  · rw [lines', lines, List.append_assoc]
  · intro line member
    rcases List.mem_append.1 member with early | late
    · exact kind line early
    · exact kind' line late

/-- Lines that are not counted leave the counts as they are. -/
theorem numbers (adds : w.Adds Line.Uncounted w') : w'.numbers = w.numbers := by
  obtain ⟨added, lines, kind⟩ := adds.lines
  have unnumbered : added.filterMap Line.number? = [] :=
    List.filterMap_eq_nil_iff.2 fun line member => (kind line member).1
  rw [World.numbers, World.numbers, lines, List.filterMap_append, unnumbered, List.append_nil]

theorem stepLines (adds : w.Adds Line.Uncounted w') : w'.stepLines = w.stepLines := by
  obtain ⟨added, lines, kind⟩ := adds.lines
  have stepless : added.countP Line.isStep = 0 := by
    rw [List.countP_eq_zero]
    intro line member
    rw [(kind line member).2]
    exact Bool.false_ne_true
  rw [World.stepLines, World.stepLines, lines, List.countP_append, stepless, Nat.add_zero]

end World.Adds

namespace Run

open Act

section Excerpt

variable {v : Int}

/-- The lines of the first world are those of the second one that are printed at a level. -/
def Excerpt (v : Int) (w w' : World σ α) : Prop :=
  w.lines.toList = w'.lines.toList.filter fun line => line.level ≤ v

theorem excerpt_start (v : Int) (u u' : σ) :
    Excerpt v (⟨u, #[], #[]⟩ : World σ α) ⟨u', #[], #[]⟩ :=
  rfl

/-- At the highest level every line is printed; at a lower level it is if it belongs there. -/
theorem related_printFrom_level {line : Line α} {k : Int} (belongs : line.level = k) :
    Related (Excerpt v) (printFrom k (.level v) line : Run σ α Unit)
      (printFrom k (.level 2) line) := by
  subst belongs
  intro w w' excerpt
  have full : Returns (printFrom line.level (.level 2) line) w' ()
      { w' with lines := w'.lines.push line } :=
    returns_printFrom_iff.2 ⟨true, congrArg Except.ok (decide_eq_true line.level_le_two), rfl⟩
  have part : Returns (printFrom line.level (.level v) line) w ()
      (if decide (line.level ≤ v) then { w with lines := w.lines.push line } else w) :=
    returns_printFrom_iff.2 ⟨_, rfl, rfl⟩
  rw [full, part]
  refine ⟨rfl, ?_⟩
  rw [Excerpt] at excerpt ⊢
  by_cases printed : line.level ≤ v <;> simp [printed, excerpt]

end Excerpt

section OnlyPrints

variable {P : Line α → Prop}

/-- The run adds lines of some kind to the trace, and nothing else, whether it fails or not. -/
def OnlyPrints (P : Line α → Prop) (r : Run σ α β) : Prop :=
  ∀ w : World σ α, w.Adds P (r.run.run w).2

theorem OnlyPrints.adds {r : Run σ α β} (prints : OnlyPrints P r) {w w' : World σ α} {b : β}
    (returned : Returns r w b w') : w.Adds P w' := by
  have adds := prints w
  rwa [returned] at adds

theorem onlyPrints_ofExcept (x : Except Fault β) : OnlyPrints P (ofExcept x : Run σ α β) :=
  fun _ => .nothing rfl rfl

theorem onlyPrints_pure (b : β) : OnlyPrints P (pure b : Run σ α β) := onlyPrints_ofExcept (.ok b)

theorem onlyPrints_act (a : Act σ β) : OnlyPrints P (act a : Run σ α β) :=
  fun _ => .nothing rfl rfl

theorem OnlyPrints.bind {x : Run σ α β} {f : β → Run σ α γ} (first : OnlyPrints P x)
    (second : ∀ b, OnlyPrints P (f b)) : OnlyPrints P (x >>= f) := by
  intro w
  have adds := first w
  rw [run_bind]
  rcases h : x.run.run w with ⟨_ | b, w₁⟩ <;> rw [h] at adds
  · exact adds
  · exact adds.trans (second b w₁)

theorem onlyPrints_printFrom {line : Line α} (kind : P line) (k : Int) (v : Verbosity) :
    OnlyPrints P (printFrom k v line : Run σ α Unit) := by
  refine (onlyPrints_ofExcept (v.atLeast k)).bind fun b => ?_
  cases b with
  | false => exact onlyPrints_pure ()
  | true =>
    intro w
    refine ⟨rfl, [line], Array.toList_push, ?_⟩
    intro line' member
    rwa [List.mem_singleton.1 member]

/-- A run that goes through a list only prints what its rounds print. -/
theorem OnlyPrints.foldlM {f : β → γ → Run σ α β} (rounds : ∀ b c, OnlyPrints P (f b c))
    (l : List γ) (b : β) : OnlyPrints P (l.foldlM f b) := by
  induction l generalizing b with
  | nil => exact onlyPrints_pure b
  | cons c l ih =>
    rw [List.foldlM_cons]
    exact (rounds b c).bind ih

/-- From its level of verbosity on a line is printed. -/
theorem eq_of_printFrom {k v : Int} (loud : k ≤ v) {line : Line α} {w w' : World σ α} {x : Unit}
    (printed : Returns (printFrom k (.level v) line) w x w') :
    w' = { w with lines := w.lines.push line } := by
  obtain ⟨b, comparable, rfl⟩ := returns_printFrom_iff.1 printed
  rw [Verbosity.atLeast, decide_eq_true loud] at comparable
  cases comparable
  rfl

/-- A line that is printed is counted. -/
theorem counts_of_printFrom {k v : Int} (loud : k ≤ v) {line : Line α} {w w' : World σ α}
    {x : Unit} (printed : Returns (printFrom k (.level v) line) w x w') :
    w'.numbers = w.numbers ++ line.number?.toList ∧
      w'.stepLines = w.stepLines + line.isStep.toNat := by
  obtain rfl := eq_of_printFrom loud printed
  rw [World.numbers, World.stepLines, Array.toList_push, List.filterMap_append, List.countP_append]
  constructor
  · cases h : line.number? <;> simp [World.numbers, h]
  · cases h : line.isStep <;> simp [World.stepLines, h]

end OnlyPrints

end Run

end BalanceFit
