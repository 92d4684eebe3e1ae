import BalanceFit.Fault
import BalanceFit.Grid

/-!
# Bringing coefficients to a length

Least squares yields as many coefficients as the predictors are long; a model may ask for another
number. Coefficients are kept by position: surplus ones at the end are dropped, and missing ones are
zero.

## Main definitions

* `resize` : a list brought to a length
* `resize?` : the same for lengths as models give them
* `Grid.resize?` : the same for coefficients in an array of any shape
-/

namespace BalanceFit

variable {α : Type} [Zero α]

/-- The list of length `n` that starts as `l` does and continues with zeros. -/
def resize (n : Nat) (l : List α) : List α := l.take n ++ List.replicate (n - l.length) 0

@[simp] theorem length_resize (n : Nat) (l : List α) : (resize n l).length = n := by
  simp only [resize, List.length_append, List.length_take, List.length_replicate]
  omega

theorem resize_length_self (l : List α) : resize l.length l = l := by
  simp [resize]

/-- Behind its own entries the list has zeros, up to the length. -/
theorem getElem?_resize (n : Nat) (l : List α) (i : Nat) :
    (resize n l)[i]? = if i < n then some (l.getD i 0) else none := by
  by_cases wanted : i < n
  · rw [if_pos wanted, resize, List.getD_eq_getElem?_getD]
    rcases Nat.lt_or_ge i l.length with inside | beyond
    · have kept : i < (l.take n).length := by
        rw [List.length_take]
        omega
      rw [List.getElem?_append_left kept, List.getElem?_take_of_lt wanted,
        List.getElem?_eq_getElem inside]
      rfl
    · have padded : (l.take n).length ≤ i := by
        rw [List.length_take]
        omega
      have place : i - (l.take n).length < n - l.length := by
        rw [List.length_take]
        omega
      rw [List.getElem?_append_right padded, List.getElem?_replicate, if_pos place,
        List.getElem?_eq_none beyond]
      rfl
  · rw [if_neg wanted, List.getElem?_eq_none_iff, length_resize]
    omega

theorem getD_resize (n : Nat) (l : List α) (i : Nat) :
    (resize n l).getD i 0 = if i < n then l.getD i 0 else 0 := by
  rw [List.getD_eq_getElem?_getD, getElem?_resize]
  split <;> rfl

/-- The list brought to a length that might be negative, or beyond what an array can hold. -/
def resize? (n : Int) (l : List α) : Except Fault (List α) := do
  Grid.checkLengths [n]
  return resize n.toNat l

/-- The first coefficients, as far as `n` of them, of an array that is taken apart along its first
axis. A single value has no such axis; rows are taken only if they fill the place of the
coefficients. -/
def Grid.resize? (n : Int) (g : Grid α) : Except Fault (List α) := do
  let empty ← BalanceFit.resize? n []
  match g.shape with
  | [] => throw .noSuchIndex
  | rows :: rest =>
    let count := min n.toNat g.entries.length
    let kept := min count rows
    let head : Grid α := ⟨kept :: rest, g.entries.take (kept * volume rest)⟩
    match head.fill? [count] with
    | some head => return head.entries ++ empty.drop count
    | none => throw .shapeMismatch

end BalanceFit
