import BalanceFit.Proofs.Grid.System
import BalanceFit.Value

/-!
# Arrays by rows

An array is full if it has an entry for every place of its shape. The arrays that callers give as
nested lists are. A full array falls into rows of one shape, which are full as well, and the rows of
two arrays that are put one below the other are the rows of the one and then those of the other.

## Main statements

* `Value.full_of_grid` : a nested list fills the shape of the array that it is
* `Grid.uniform_rows` : the rows of an array have one shape
* `Grid.pieces_append` : the pieces of two lists, one behind the other
-/

namespace BalanceFit

variable {α : Type}

namespace Nested

mutual

/-- A nested list has as many leaves as its shape has places. -/
theorem length_leaves : ∀ (x : Nested α) {s : List Nat}, x.shape? = some s →
    x.leaves.length = Grid.volume s
  | leaf a, s, shaped => by
    cases shaped
    rfl
  | node [], s, shaped => by
    cases shaped
    rfl
  | node (c :: cs), s, shaped => by
    rw [shape?] at shaped
    split at shaped
    case h_1 => cases shaped
    case h_2 row first =>
      split at shaped
      case isFalse => cases shaped
      case isTrue alike =>
        cases shaped
        rw [leaves, leavesAll, List.length_append, length_leaves c first,
          length_leavesAll cs alike]
        change _ = (cs.length + 1) * Grid.volume row
        rw [Nat.succ_mul, Nat.add_comm]

/-- Rows of one shape have equally many leaves. -/
theorem length_leavesAll : ∀ (cs : List (Nested α)) {s : List Nat},
    allShaped s cs = true → (leavesAll cs).length = cs.length * Grid.volume s
  | [], s, _ => (Nat.zero_mul _).symm
  | c :: cs, s, alike => by
    rw [allShaped, Bool.and_eq_true, beq_iff_eq] at alike
    rw [leavesAll, List.length_append, length_leaves c alike.1, length_leavesAll cs alike.2,
      List.length_cons, Nat.succ_mul, Nat.add_comm]

end

end Nested

/-- Each entry of a list is converted to one. -/
theorem length_of_mapM {β : Type} {f : α → Except Fault β} {l : List α} {r : List β}
    (converted : l.mapM f = .ok r) : r.length = l.length := by
  induction l generalizing r with
  | nil =>
    cases converted
    rfl
  | cons a l ih =>
    rw [List.mapM_cons] at converted
    obtain ⟨b, -, converted⟩ := exists_of_bind_eq_ok converted
    obtain ⟨bs, rest, converted⟩ := exists_of_bind_eq_ok converted
    cases converted
    rw [List.length_cons, List.length_cons, ih rest]

/-- The entries of an array that a caller gives as a nested list fill its shape. -/
theorem Value.full_of_grid {v : Value} {g : Grid Float} (read : v.grid = .ok g) :
    g.entries.length = Grid.volume g.shape := by
  rw [grid] at read
  split at read
  case h_1 => cases read
  case h_2 cells nested =>
    cases converted : cells.entries.mapM Entry.toCell with
    | error f =>
      rw [converted] at read
      cases read
    | ok l =>
      rw [converted] at read
      cases read
      rw [Grid.ofNested?] at nested
      split at nested
      case h_2 => cases nested
      case h_1 s shaped =>
        split at nested
        case isFalse => cases nested
        case isTrue =>
          cases nested
          exact (length_of_mapM converted).trans (Nested.length_leaves v shaped)

namespace Grid

/-- The pieces of two lists, one behind the other. -/
theorem pieces_append {m n size : Nat} {l l' : List α} (full : l.length = m * size) :
    pieces (m + n) size (l ++ l') = pieces m size l ++ pieces n size l' := by
  rw [pieces, List.range_add, List.map_append, List.map_map]
  congr 1
  · refine List.map_congr_left fun i member => ?_
    have inside : (i + 1) * size ≤ m * size := Nat.mul_le_mul_right size (List.mem_range.1 member)
    rw [Nat.succ_mul] at inside
    rw [List.drop_append_of_le_length (by omega),
      List.take_append_of_le_length (by rw [List.length_drop]; omega)]
  · refine List.map_congr_left fun i _ => ?_
    have behind : (m + i) * size = l.length + i * size := by rw [Nat.add_mul, full]
    rw [Function.comp_apply, behind, List.drop_length_add_append]

/-- Promoting an array to rows changes neither its entries nor their number. -/
theorem full_atLeastRows {g : Grid α} (full : g.entries.length = volume g.shape) :
    g.atLeastRows.entries.length = volume g.atLeastRows.shape := by
  rw [atLeastRows]
  split
  case h_1 scalar => simpa [scalar, volume] using full
  case h_2 n vector => simpa [vector, volume] using full
  case h_3 => exact full

/-- The rows of an array have one shape. -/
theorem uniform_rows {g : Grid α} (full : g.entries.length = volume g.shape) :
    ∃ shape, ∀ row ∈ g.rows, row.shape = shape ∧ row.entries.length = volume shape := by
  rw [rows]
  split
  case h_1 => exact ⟨[], nofun⟩
  case h_2 n shape axes =>
    refine ⟨shape, fun row member => ?_⟩
    obtain ⟨piece, cut, rfl⟩ := List.mem_map.1 member
    rw [axes] at full
    exact ⟨rfl, length_of_mem_pieces full.ge cut⟩

end Grid

end BalanceFit
