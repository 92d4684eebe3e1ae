import BalanceFit.Fault

/-!
# Numbers of coefficients

A model tells how many coefficients it has. What it tells need not be a whole number; then it still
may equal one, but nothing can be brought to that length.

## Main definitions

* `Dimension` : what a model tells
* `Dimension.agrees` : whether a length is that number
* `Dimension.length` : that number as a length
-/

namespace BalanceFit

/-- What a model tells its number of coefficients to be. -/
inductive Dimension where
  | count (n : Int)
  /-- Anything but a whole number: how it is written, the whole number that it equals, if any, and
  the fault of an array with that length. -/
  | other (written : String) (equal : Option Int) (fault : Fault)
  deriving DecidableEq, Repr

namespace Dimension

/-- Whether a length is the number of coefficients. -/
def agrees : Dimension → Nat → Bool
  | count n, length => n == length
  | other _ equal _, length => equal == some (length : Int)

/-- The number of coefficients in writing. -/
def shown : Dimension → String
  | count n => toString n
  | other written _ _ => written

/-- The number of coefficients as a length, which only a whole number is. -/
def length : Dimension → Except Fault Int
  | count n => .ok n
  | other _ _ fault => .error fault

@[simp] theorem agrees_count (n length : Nat) : (count n).agrees length = (n == length) := by
  rw [Bool.eq_iff_iff]
  simp only [agrees, beq_iff_eq]
  omega

end Dimension

end BalanceFit
