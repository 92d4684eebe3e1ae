import BalanceFit.Value

/-!
# Predictor lengths

A store may be told the length of its predictors before it holds any. What it is told is compared
with the length of each predictor as a number, so a truth value counts as one and a fraction or NaN
equals no length.

## Main definitions

* `Width` : what a store knows of the length of its predictors
* `Width.admits` : whether a length agrees with it
-/

namespace BalanceFit

/-- The length of the predictors of a store, as given. -/
inductive Width where
  | whole (n : Int)
  /-- The truth value that counts as one. -/
  | single
  | real (x : Float)

namespace Width

/-- What a store is told about its predictors: nothing, or a number that is not below one. -/
def ofValue? : Value → Except Fault (Option Width)
  | .leaf .nothing => .ok none
  | .leaf (.flag b) => if b then .ok (some single) else .error (.badWidth (Entry.flag b).shown)
  | .leaf (.whole n) => if n < 1 then .error (.badWidth (toString n)) else .ok (some (whole n))
  | .leaf (.real x) =>
    if x < 1 then .error (.badWidth (Decimal.shortestText x)) else .ok (some (real x))
  | .leaf (.text _) | .node _ => .error .notANumber

/-- The width as a value. -/
def toEntry : Width → Entry
  | whole n => .whole n
  | single => .flag true
  | real x => .real x

/-- Whether predictors of a length agree with the width. -/
def admits : Width → Nat → Bool
  | whole n, length => n == length
  | single, length => length == 1
  | real x, length => x == Float.ofNat length

/-- The most columns that an empty array of doubles can have: their size in bytes is a signed number
of 64 bits. -/
def columnLimit : Nat := Nat.pow 2 60

/-- The number of columns of an array without rows, which only a whole number can be. -/
def columns : Width → Except Fault Nat
  | whole n => if n < columnLimit then .ok n.toNat else .error .shapeMismatch
  | _ => .error .notANumber

end Width

end BalanceFit
