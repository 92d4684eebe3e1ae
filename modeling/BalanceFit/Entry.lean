import BalanceFit.Decimal.Reading
import BalanceFit.Decimal.Shortest
import BalanceFit.Fault
import BalanceFit.Scalar.Double
import BalanceFit.Text.Quoted

/-!
# Values as callers give them

A caller gives whole numbers of any size, doubles, truth values, texts, or nothing. Settings keep
such a value as it is; predictors, responses and weights turn it into doubles.

## Main definitions

* `Entry` : a value as given
* `Entry.toDouble` : the double it stands for on its own
* `Entry.toCell` : the double it stands for in an array, where nothing stands for NaN
* `Entry.comparand` : the double it stands for as an upper bound of doubles
* `Entry.atMost` : the order of numbers
* `Entry.shown`, `Entry.written` : the value in writing, on its own and inside another
-/

namespace BalanceFit

/-- A value as a caller gives it. -/
inductive Entry where
  | nothing
  | flag (b : Bool)
  | whole (n : Int)
  | real (x : Float)
  | text (s : String)

namespace Entry

/-- The double that a value stands for on its own. -/
def toDouble : Entry → Except Fault Float
  | nothing => .error .notANumber
  | flag b => .ok (if b then 1 else 0)
  | whole n => match Decimal.wholeFloat? n with
    | some x => .ok x
    | none => .error .tooLarge
  | real x => .ok x
  | text s => match Decimal.readFloat? s with
    | some x => .ok x
    | none => .error .unreadableText

/-- The double that a value stands for in an array. -/
def toCell : Entry → Except Fault Float
  | nothing => .ok Scalar.nan
  | e => e.toDouble

/-- Whether a value counts as true: numbers do unless they are zero, texts unless they are empty. -/
def truthy : Entry → Bool
  | nothing => false
  | flag b => b
  | whole n => n ≠ 0
  | real x => x != 0
  | text s => !s.isEmpty

/-- A value as it is written on its own. -/
def shown : Entry → String
  | nothing => "None"
  | flag b => if b then "True" else "False"
  | whole n => toString n
  | real x => Decimal.shortestText x
  | text s => s

/-- A value as it is written inside another, where texts carry quotes. -/
def written : Entry → String
  | text s => Text.quoted s
  | e => e.shown

/-- The whole number that a double is, if it is one. -/
def wholeOf? (x : Float) : Option Int :=
  match Decimal.Binary64.ofFloat x with
  | .finite negative m q =>
    let num := m * Nat.pow 2 q.toNat
    let den := Nat.pow 2 (-q).toNat
    if num % den = 0 then
      let n : Int := (num / den : Nat)
      some (if negative then -n else n)
    else none
  | _ => none

/-- Whether two values are equal: numbers by their exact values, a truth value being one or zero. -/
def same : Entry → Entry → Bool
  | nothing, nothing => true
  | text s, text t => s == t
  | real x, real y => x == y
  | real x, flag b => x == if b then 1 else 0
  | flag b, real x => x == if b then 1 else 0
  | real x, whole n => wholeOf? x == some n
  | whole n, real x => wholeOf? x == some n
  | whole m, whole n => m == n
  | whole n, flag b => n == if b then 1 else 0
  | flag b, whole n => n == if b then 1 else 0
  | flag a, flag b => a == b
  | _, _ => false

/-- Whether a whole number has at most 64 bits, with or without a sign. -/
def isWord (n : Int) : Bool := -Nat.pow 2 63 ≤ n && n < Nat.pow 2 64

/-- Whether a value is a truth value, a whole number of at most 64 bits, or a double. -/
def isMachineNumber : Entry → Bool
  | whole n => isWord n
  | flag _ | real _ => true
  | nothing | text _ => false

/-- The largest double that is at most a natural number: its 53 leading bits, or the largest of all
doubles. -/
def floorDouble (n : Nat) : Float :=
  let unit := Nat.pow 2 (n.log2 - 52)
  let x := Float.ofNat (n / unit * unit)
  if x.isFinite then x else Float.ofScientific 17976931348623157 false 292

/-- The least double that is at least a natural number. -/
def ceilDouble (n : Nat) : Float :=
  let unit := Nat.pow 2 (n.log2 - 52)
  Float.ofNat ((n + unit - 1) / unit * unit)

/-- The largest double that is at most a whole number. -/
def lowerDouble (n : Int) : Float := if n < 0 then -ceilDouble n.natAbs else floorDouble n.natAbs

/-- The double by which doubles are compared with a number: the ones that are at most the number are
those that are at most this double. -/
def comparand : Entry → Except Fault Float
  | nothing => .error .notANumber
  | flag b => .ok (if b then 1 else 0)
  | whole n => .ok (lowerDouble n)
  | real x => .ok x
  | text _ => .error .notANumber

/-- A value in which a truth value is one or zero. -/
def counted : Entry → Entry
  | flag b => whole b.toNat
  | e => e

/-- Whether a number is at most another one, by their exact values; NaN is not comparable. -/
def atMost (a b : Entry) : Bool :=
  match a.counted, b.counted with
  | whole m, whole n => m ≤ n
  | whole m, real y => -lowerDouble (-m) ≤ y
  | real x, whole n => x ≤ lowerDouble n
  | real x, real y => x ≤ y
  | _, _ => false

end Entry

end BalanceFit
