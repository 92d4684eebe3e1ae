import BalanceFit.Decimal.Shortest

/-!
# Scientific notation with a set number of places

Magnitudes in traces and summaries are written with one digit before the point, a set number of
digits after it, and an exponent of at least two digits. The digits are those of the exact value of
the double, rounded to nearest with ties to even.

## Main definitions

* `scientificText` : the written form
* `Decimal.scientificValue` : the exponent of a double once it is rounded for writing
-/

namespace BalanceFit.Decimal

/-- A double with `places` digits after the point, as in `1.59e+00`. -/
def scientificText (places : Nat) (x : Float) : String :=
  match Binary64.ofFloat x with
  | .nan => "nan"
  | .infinite negative => if negative then "-inf" else "inf"
  | .finite negative m q =>
    let (digits, e) :=
      if m = 0 then (0, 0) else (Fraction.ofBinary m q).significant (places + 1)
    let ds := Nat.toDigits 10 digits
    let padded := ds ++ List.replicate (places + 1 - ds.length) '0'
    (if negative then "-" else "") ++ String.ofList (padded.take 1) ++
      (if places = 0 then "" else "." ++ String.ofList (padded.drop 1)) ++ "e" ++
      exponentText 2 e

/-- Whether a double, once it is rounded to `places` digits after the point, is smaller than `10 ^
bound` in magnitude. NaN and the infinities are not. -/
def scientificBelow (places : Nat) (bound : Int) (x : Float) : Bool :=
  match Binary64.ofFloat x with
  | .finite _ m q =>
    m = 0 || ((Fraction.ofBinary m q).significant (places + 1)).2 < bound
  | _ => false

end BalanceFit.Decimal
