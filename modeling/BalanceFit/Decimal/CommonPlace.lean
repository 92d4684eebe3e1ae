import BalanceFit.Decimal.Binary64

/-!
# Values rounded to a common decimal place

Several doubles are reported together as whole multiples of one power of ten. The power leaves seven
significant digits to the largest of them, and never goes below a floor that the reader sets, so
that noise far under the largest value disappears.

## Main definitions

* `CommonPlace` : a power of ten and one `Rounded` entry for each value
* `CommonPlace.ofValues` : the rounding itself
-/

namespace BalanceFit.Decimal

/-- A double once it is rounded to a decimal place. -/
inductive Rounded where
  | nan
  | infinite (negative : Bool)
  /-- The number of units of the place. -/
  | units (n : Int)
  deriving DecidableEq, Repr

/-- Values as whole multiples of `10 ^ place`. -/
structure CommonPlace where
  place : Int
  entries : List Rounded
  deriving Repr

namespace CommonPlace

/-- How many significant digits the largest value keeps. -/
def precision : Nat := 7

/-- A double in units of `10 ^ place`, rounded to nearest with ties to even. -/
def round (place : Int) (x : Float) : Rounded :=
  match Binary64.ofFloat x with
  | .nan => .nan
  | .infinite negative => .infinite negative
  | .finite negative m q =>
    let n : Int := ((Fraction.ofBinary m q).shift place).roundEven
    .units (if negative then -n else n)

/-- The larger of `top` and a magnitude, NaN and the infinities left out. -/
def larger (top x : Float) : Float :=
  if x.isFinite && top < x.abs then x.abs else top

/-- A place at which every double rounds to zero. -/
def highestPlace : Int := 400

/-- The place that leaves `precision` digits to the number `top`, but no lower than `floor`, as far
as that makes a difference. -/
def placeFor (floor : Int) (top : Float) : Int :=
  match Binary64.ofFloat top with
  | .finite _ m q =>
    if m = 0 then 0
    else max (((Fraction.ofBinary m q).significant precision).2 - (precision - 1 : Nat))
      (min floor highestPlace)
  | _ => 0

/-- The values rounded to the place of their largest. Where nothing but zeros is left the place is
`0`. -/
def ofValues (floor : Int) (values : List Float) : CommonPlace :=
  let place := placeFor floor (values.foldl larger 0)
  let entries := values.map (round place)
  let vanished (r : Rounded) : Bool := match r with
    | .units n => n = 0
    | _ => true
  ⟨if entries.all vanished then 0 else place, entries⟩

end CommonPlace

end BalanceFit.Decimal
