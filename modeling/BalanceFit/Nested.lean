/-!
# Nested lists

Numbers reach this library as single values or as lists nested to any depth. A nested list is an
array if all rows at one depth have the same shape.

## Main definitions

* `Nested α` : a single value or a list of nested lists
* `Nested.shape?` : the lengths along each axis, if the list is an array
* `Nested.leaves` : the values from left to right
* `Nested.ofShape` : the array with a given shape and given values
-/

namespace BalanceFit

/-- A value, or a list of nested lists of values. -/
inductive Nested (α : Type) where
  | leaf (a : α)
  | node (children : List (Nested α))

namespace Nested

variable {α : Type}

mutual

/-- The lengths along each axis, outermost first; `none` if rows at one depth differ. -/
def shape? : Nested α → Option (List Nat)
  | leaf _ => some []
  | node [] => some [0]
  | node (c :: cs) =>
    match shape? c with
    | none => none
    | some s => if allShaped s cs then some ((cs.length + 1) :: s) else none

/-- Whether all of some nested lists are arrays of one shape. -/
def allShaped (s : List Nat) : List (Nested α) → Bool
  | [] => true
  | c :: cs => shape? c == some s && allShaped s cs

end

mutual

/-- The values from left to right. -/
def leaves : Nested α → List α
  | leaf a => [a]
  | node cs => leavesAll cs

/-- The values of several nested lists from left to right. -/
def leavesAll : List (Nested α) → List α
  | [] => []
  | c :: cs => leaves c ++ leavesAll cs

end

/-- The value itself, if there is just one and no list. -/
def leaf? : Nested α → Option α
  | leaf a => some a
  | node _ => none

/-- The array of a shape whose values, from left to right, are those of a list. -/
def ofShape : List Nat → List α → Option (Nested α)
  | [], l => l.head?.map leaf
  | n :: s, l =>
    let size := s.foldr (· * ·) 1
    ((List.range n).mapM fun i => ofShape s ((l.drop (i * size)).take size)).map node

end Nested

end BalanceFit
