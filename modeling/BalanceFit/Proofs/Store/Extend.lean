import BalanceFit.Proofs.Grid.Rows
import BalanceFit.Proofs.Store.Refinement

/-!
# Rows are appended all or none

A store takes the rows of an array one after the other, and nothing undoes the ones that it has
taken when it refuses a later one. It need not: the rows of an array have one shape, so if the store
takes the first of them it takes all, and if it refuses one then that is the first.

## Main definitions

* `Store.addEach` : the store after some observations, if each of them is appended
* `Block` : rows of one shape, with a response and perhaps a weight for each
* `Store.extendBy` : the store extended by a block

## Main statements

* `Store.addAll_of_uniform` : of rows that have one shape, all or none are appended
* `Store.extend_all_or_nothing` : a store is extended by all rows or by none
-/

namespace BalanceFit

variable {α : Type}

namespace Store

/-- The store after some observations are appended one after the other, if all of them are. -/
def addEach (s : Store α) (rows : List (Grid α × α × α)) : Except Fault (Store α) :=
  rows.foldlM (fun s (x, y, weight) => (·.2) <$> s.add (.ok x) (.ok y) (.ok weight)) s

section Rows

variable {s s' : Store α}

/-- Appending until one fails gets through if each of them is appended. -/
theorem addAll_eq_ok_iff {rows : List (Grid α × α × α)} :
    s.addAll rows = (.ok (), s') ↔ s.addEach rows = .ok s' := by
  induction rows generalizing s with
  | nil =>
    rw [addAll, addEach, List.foldlM_nil, Prod.mk.injEq]
    exact ⟨fun h => congrArg _ h.2, fun h => ⟨rfl, Except.ok.inj h⟩⟩
  | cons row rest ih =>
    obtain ⟨x, y, weight⟩ := row
    rw [addAll, addEach, List.foldlM_cons]
    dsimp only
    cases s.add (.ok x) (.ok y) (.ok weight) with
    | error f =>
      refine iff_of_false (fun refused => ?_) fun refused => ?_
      · cases congrArg Prod.fst refused
      · cases refused
    | ok r => exact ih

/-- Rows behind others are appended if those are. -/
theorem addAll_append (s : Store α) (rows rest : List (Grid α × α × α)) :
    s.addAll (rows ++ rest) = match s.addAll rows with
      | (.ok (), s') => s'.addAll rest
      | (.error f, s') => (.error f, s') := by
  induction rows generalizing s with
  | nil => rfl
  | cons row rows ih =>
    obtain ⟨x, y, weight⟩ := row
    rw [List.cons_append, addAll, addAll]
    cases s.add (.ok x) (.ok y) (.ok weight) with
    | error f => rfl
    | ok r => exact ih r.2

/-- A store that may hold predictors of some length takes all rows that are vectors of that length.
-/
theorem addAll_of_admits {n : Nat} (nonempty : 1 ≤ n)
    (admits : ∀ w, s.width = some w → w.admits n = true) {rows : List (Grid α × α × α)}
    (uniform : ∀ row ∈ rows, row.1.shape.length = 1 ∧ row.1.entries.length = n) :
    ∃ s', s.addAll rows = (.ok (), s') := by
  induction rows generalizing s with
  | nil => exact ⟨s, rfl⟩
  | cons row rest ih =>
    obtain ⟨x, y, weight⟩ := row
    obtain ⟨axes, length⟩ := uniform _ List.mem_cons_self
    rw [addAll, add_ok ⟨axes, by omega⟩ (by rwa [length])]
    refine ih (fun w known => ?_) fun row member => uniform row (List.mem_cons_of_mem _ member)
    -- From the first row on, the width is the length of the rows.
    rw [← Option.some.inj known]
    simp [Width.admits, length]

/-- Of rows that have one shape the store takes all or none. Whatever it may refuse it refuses at
the first row: the shape, the number of entries, and the length, which the other rows share. -/
theorem addAll_of_uniform (s : Store α) {shape : List Nat} {n : Nat}
    {rows : List (Grid α × α × α)}
    (uniform : ∀ row ∈ rows, row.1.shape = shape ∧ row.1.entries.length = n) :
    (∃ f, s.addAll rows = (.error f, s)) ∨ ∃ s', s.addAll rows = (.ok (), s') := by
  cases rows with
  | nil => exact .inr ⟨s, rfl⟩
  | cons row rest =>
    obtain ⟨x, y, weight⟩ := row
    obtain ⟨axes, length⟩ := uniform _ List.mem_cons_self
    cases added : s.add (.ok x) (.ok y) (.ok weight) with
    | error f =>
      refine .inl ⟨f, ?_⟩
      rw [addAll, added]
    | ok r =>
      obtain ⟨g, _, _, same, -, -, ⟨vector, nonempty⟩, agrees⟩ := parts_of_add added
      cases same
      refine .inr (addAll_of_admits nonempty agrees fun row member => ?_)
      obtain ⟨axes', length'⟩ := uniform row member
      exact ⟨by rw [axes', ← axes, vector], length'.trans length.symm⟩

end Rows

end Store

/-- Rows of one shape, which begins with `p`, with a response for each of them and perhaps a weight.
-/
structure Block (α : Type) (p : Nat) (rest : List Nat) where
  count : Nat
  entries : List α
  y : List α
  weights : Option (List α)
  full : entries.length = count * Grid.volume (p :: rest)
  length_y : y.length = count
  length_weights : ∀ w, weights = some w → w.length = count

namespace Block

variable {p : Nat} {rest : List Nat}

/-- The rows as an array. -/
def x (b : Block α p rest) : Grid α := ⟨b.count :: p :: rest, b.entries⟩

theorem length_rows_x (b : Block α p rest) : b.x.rows.length = b.count := by
  simp [x, Grid.rows, Grid.pieces]

variable [One α]

/-- The weights of the rows, which are one unless they are given. -/
def weightList (b : Block α p rest) : List α := b.weights.getD (.replicate b.count 1)

theorem length_weightList (b : Block α p rest) : b.weightList.length = b.count := by
  rw [weightList]
  cases given : b.weights with
  | none => exact List.length_replicate
  | some w => exact b.length_weights w given

/-- Two blocks, one below the other. There are no weights only if neither block has any. -/
def append (b c : Block α p rest) : Block α p rest where
  count := b.count + c.count
  entries := b.entries ++ c.entries
  y := b.y ++ c.y
  weights :=
    if b.weights.isNone ∧ c.weights.isNone then none else some (b.weightList ++ c.weightList)
  full := by rw [List.length_append, b.full, c.full, Nat.add_mul]
  length_y := by rw [List.length_append, b.length_y, c.length_y]
  length_weights := by
    intro w given
    split at given
    · cases given
    · rw [← Option.some.inj given, List.length_append, length_weightList, length_weightList]

theorem weightList_append (b c : Block α p rest) :
    (b.append c).weightList = b.weightList ++ c.weightList := by
  rw [weightList, append]
  dsimp only
  split
  case isTrue unweighted =>
    rw [weightList, weightList, Option.isNone_iff_eq_none.1 unweighted.1,
      Option.isNone_iff_eq_none.1 unweighted.2]
    exact List.replicate_add ..
  case isFalse => rfl

/-- The rows, each with its response and its weight. -/
def rows (b : Block α p rest) : List (Grid α × α × α) := b.x.rows.zip (b.y.zip b.weightList)

theorem rows_append (b c : Block α p rest) : (b.append c).rows = b.rows ++ c.rows := by
  have predictors : (b.append c).x.rows = b.x.rows ++ c.x.rows := by
    simp only [x, append, Grid.rows]
    rw [Grid.pieces_append b.full, List.map_append]
  have data : (b.append c).y.zip (b.append c).weightList =
      b.y.zip b.weightList ++ c.y.zip c.weightList := by
    rw [weightList_append]
    exact List.zip_append (by rw [b.length_y, length_weightList])
  rw [rows, predictors, data, List.zip_append]
  · rfl
  · rw [length_rows_x, List.length_zip, b.length_y, length_weightList, Nat.min_self]

end Block

namespace Store

variable [One α] {p : Nat} {rest : List Nat}

/-- The store extended by a block. -/
def extendBy (s : Store α) (b : Block α p rest) : Except Fault Unit × Store α :=
  s.extend (.ok b.x) (.ok (.ofList b.y)) (b.weights.map fun w => .ok (.ofList w))

/-- What a store is extended by are the rows of three arrays of which there are equally many, where
each weight is one if there are none. -/
theorem rowsOf_eq_ok_iff {x y : Except Fault (Grid α)} {weights : Option (Except Fault (Grid α))}
    {rows : List (Grid α × α × α)} :
    rowsOf x y weights = .ok rows ↔
      ∃ g h ws, x = .ok g ∧ y = .ok h ∧
        (weights.getD (.ok (.ofList (.replicate h.entries.length 1)))).map (·.entries) = .ok ws ∧
        g.atLeastRows.rows.length = h.entries.length ∧ h.entries.length = ws.length ∧
          rows = g.atLeastRows.rows.zip (h.entries.zip ws) := by
  have parts : rowsOf x y weights = x >>= fun g => y >>= fun h =>
      (weights.getD (.ok (.ofList (.replicate h.entries.length 1)))).map (·.entries) >>= fun ws =>
        if g.atLeastRows.rows.length = h.entries.length ∧ h.entries.length = ws.length then
          .ok (g.atLeastRows.rows.zip (h.entries.zip ws))
        else .error (.unevenCounts g.atLeastRows.rows.length h.entries.length ws.length) := by
    cases weights <;> rfl
  rw [parts]
  constructor
  · intro counted
    obtain ⟨g, read_x, counted⟩ := exists_of_bind_eq_ok counted
    obtain ⟨h, read_y, counted⟩ := exists_of_bind_eq_ok counted
    obtain ⟨ws, given, counted⟩ := exists_of_bind_eq_ok counted
    split at counted
    case isFalse => cases counted
    case isTrue even =>
      cases counted
      exact ⟨g, h, ws, read_x, read_y, given, even.1, even.2, rfl⟩
  · rintro ⟨g, h, ws, rfl, rfl, given, rows_y, y_weights, rfl⟩
    change (Except.map _ _ >>= _) = _
    rw [given]
    exact if_pos ⟨rows_y, y_weights⟩

/-- To extend a store by a block is to append its rows. -/
theorem extendBy_eq (s : Store α) (b : Block α p rest) : s.extendBy b = s.addAll b.rows := by
  have given : ((b.weights.map fun w => Except.ok (Grid.ofList w)).getD
      (.ok (.ofList (.replicate b.y.length 1)))).map (·.entries) =
        (.ok b.weightList : Except Fault (List α)) := by
    rw [Block.weightList, b.length_y]
    cases b.weights <;> rfl
  have counted : rowsOf (.ok b.x) (.ok (.ofList b.y)) (b.weights.map fun w => .ok (.ofList w)) =
      .ok b.rows :=
    rowsOf_eq_ok_iff.2 ⟨b.x, .ofList b.y, b.weightList, rfl, rfl, given,
      b.length_rows_x.trans b.length_y.symm, b.length_y.trans b.length_weightList.symm, rfl⟩
  rw [extendBy, extend, counted]

/-- **A store is extended by all rows or by none.** If the extension fails the store is as it was.
It returns exactly if there are equally many rows, responses and weights, and each row can be
appended after the ones before it; then the store is the one that this leads to. So extending it by
two blocks in turn is extending it by both at once. -/
theorem extend_all_or_nothing (s : Store α) (x y : Except Fault (Grid α))
    (weights : Option (Except Fault (Grid α)))
    (full : ∀ g, x = .ok g → g.entries.length = Grid.volume g.shape) :
    (∀ f s', s.extend x y weights = (.error f, s') → s' = s) ∧
    (∀ s', s.extend x y weights = (.ok (), s') ↔
      ∃ g h ws, x = .ok g ∧ y = .ok h ∧
        (weights.getD (.ok (.ofList (.replicate h.entries.length 1)))).map (·.entries) = .ok ws ∧
        g.atLeastRows.rows.length = h.entries.length ∧ h.entries.length = ws.length ∧
          s.addEach (g.atLeastRows.rows.zip (h.entries.zip ws)) = .ok s') ∧
    ∀ {p : Nat} {rest : List Nat} (b c : Block α p rest),
      s.extendBy (b.append c) = match s.extendBy b with
        | (.ok (), s₁) => s₁.extendBy c
        | (.error f, s₁) => (.error f, s₁) := by
  refine ⟨fun f s' failed => ?_, fun s' => ?_, fun b c => ?_⟩
  · rw [extend] at failed
    cases counted : rowsOf x y weights with
    | error e =>
      rw [counted] at failed
      exact (Prod.mk.inj failed).2.symm
    | ok rows =>
      rw [counted] at failed
      obtain ⟨g, h, ws, read, -, -, -, -, rfl⟩ := rowsOf_eq_ok_iff.1 counted
      obtain ⟨shape, uniform⟩ := Grid.uniform_rows (Grid.full_atLeastRows (full g read))
      rcases s.addAll_of_uniform fun row member => uniform row.1 (List.of_mem_zip member).1 with
        ⟨e, refused⟩ | ⟨s₁, taken⟩
      · exact (Prod.mk.inj (failed.symm.trans refused)).2
      · cases (Prod.mk.inj (failed.symm.trans taken)).1
  · constructor
    · intro returned
      rw [extend] at returned
      cases counted : rowsOf x y weights with
      | error e =>
        rw [counted] at returned
        cases (Prod.mk.inj returned).1
      | ok rows =>
        rw [counted] at returned
        obtain ⟨g, h, ws, read_x, read_y, given, rows_y, y_weights, rfl⟩ :=
          rowsOf_eq_ok_iff.1 counted
        exact ⟨g, h, ws, read_x, read_y, given, rows_y, y_weights, addAll_eq_ok_iff.1 returned⟩
    · rintro ⟨g, h, ws, read_x, read_y, given, rows_y, y_weights, added⟩
      have counted : rowsOf x y weights = .ok _ :=
        rowsOf_eq_ok_iff.2 ⟨g, h, ws, read_x, read_y, given, rows_y, y_weights, rfl⟩
      rw [extend, counted]
      exact addAll_eq_ok_iff.2 added
  · rw [extendBy_eq, extendBy_eq, Block.rows_append, addAll_append]
    rcases s.addAll b.rows with ⟨f | _, s₁⟩
    · rfl
    · exact (extendBy_eq s₁ c).symm

/-- Two rows of two entries extend an empty store that was told this length, and leave one that was
told another length as it was. -/
theorem extend_all_or_nothing_pair :
    let x := Value.grid (.node [.node [.leaf (.real 1), .leaf (.real 2)],
      .node [.leaf (.real 3), .leaf (.real 4)]])
    let y := Value.grid (.node [.leaf (.real 5), .leaf (.real 6)])
    let one : Float := Observation.defaultWeight
    (∃ s', (Store.empty (some (.whole 2))).extend x y none = (.ok (), s') ∧
      s'.log = [⟨[1, 2], 5, one⟩, ⟨[3, 4], 6, one⟩]) ∧
    ∃ f, (Store.empty (some (.whole 3))).extend x y none =
      (.error f, .empty (some (.whole 3))) := by
  intro x y one
  have law (s : Store Float) := extend_all_or_nothing s x y none fun g => Value.full_of_grid
  have read_x : x = .ok ⟨[2, 2], [1, 2, 3, 4]⟩ := rfl
  have read_y : y = .ok ⟨[2], [5, 6]⟩ := rfl
  constructor
  · let s₁ : Store Float := (Store.empty (some (.whole 2))).push ⟨[1, 2], 5, one⟩ (by decide)
      (by rintro w ⟨⟩; rfl)
    let s₂ : Store Float := s₁.push ⟨[3, 4], 6, one⟩ (by decide) (by rintro w ⟨⟩; rfl)
    have added : (Store.empty (some (.whole 2))).addEach [(⟨[2], [1, 2]⟩, 5, one),
        (⟨[2], [3, 4]⟩, 6, one)] = .ok s₂ := rfl
    have even : [(5 : Float), 6].length = [one, one].length := by decide
    exact ⟨s₂, ((law _).2.1 s₂).2 ⟨_, _, [one, one], read_x, read_y, rfl, rfl, even, added⟩, rfl⟩
  · rcases outcome : (Store.empty (some (.whole 3))).extend x y none with ⟨f | _, s'⟩
    · exact ⟨f, by rw [(law _).1 f s' outcome]⟩
    · obtain ⟨g, h, ws, read_x', read_y', given, -, -, added⟩ := ((law _).2.1 s').1 outcome
      obtain rfl := Except.ok.inj (read_x.symm.trans read_x')
      obtain rfl := Except.ok.inj (read_y.symm.trans read_y')
      obtain rfl := Except.ok.inj given
      cases added

end Store

end BalanceFit
