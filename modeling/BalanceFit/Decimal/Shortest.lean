import BalanceFit.Decimal.Binary64

/-!
# The shortest decimal that reads back

A double is written with the fewest digits that still read back to it, and of those with the
nearest. The reals that round to a double form an interval around it whose ends belong to it exactly
when the mantissa is even; `Shortest.digits` looks for a point of that interval on the decimal grids
of one digit, two digits, and so on, where only the two neighbours of the value need a test.

## Main definitions

* `Shortest.digits` : the chosen digits and the exponent of their last place
* `Layout` : how chosen digits are set out, and `Layout.plain`, the layout of this library
* `shortestText` : the written form of a double
-/

namespace BalanceFit.Decimal

namespace Shortest

/-- The grid point that stands for the value, if one of the value's two neighbours on the grid lies
in the rounding interval: the nearer of two, and of two equally near the even one. In units of a
quarter of the last binary place the interval runs from `low` to `high` around `value`, and a unit
is `num / den` grid steps. -/
def neighbour? (value low high : Nat) (closed : Bool) (num den : Nat) : Option Nat :=
  let below := value * num / den
  let inside (t : Nat) : Bool :=
    if closed then low * num ≤ t * den && t * den ≤ high * num
    else low * num < t * den && t * den < high * num
  let toBelow := value * num - below * den
  let toAbove := (below + 1) * den - value * num
  match inside below, inside (below + 1) with
  | true, true =>
    if toBelow < toAbove then some below
    else if toAbove < toBelow then some (below + 1)
    else some (below + below % 2)
  | true, false => some below
  | false, true => some (below + 1)
  | false, false => none

/-- The first of the grids with `count`, `count + 1`, … digits that has a point in the interval, as
that point and the exponent of its last place. Seventeen digits always suffice; `fuel` is the number
of grids that are left. -/
def search (value low high : Nat) (closed : Bool) (q : Int) (top : Int) :
    (fuel : Nat) → (count : Nat) → Nat × Int
  | 0, _ => (0, 0)
  | fuel + 1, count =>
    let place := top - (count - 1 : Nat)
    let num := Nat.pow 2 (q - 2).toNat * Nat.pow 10 (-place).toNat
    let den := Nat.pow 2 (2 - q).toNat * Nat.pow 10 place.toNat
    match neighbour? value low high closed num den with
    | some t => (t, place)
    | none => search value low high closed q top fuel (count + 1)

/-- The digits for the positive double `m * 2 ^ q`, and the exponent of their last place. The gap
below a power of two is half the gap above it, except at the bottom of the range. -/
def digits (m : Nat) (q : Int) : Nat × Int :=
  let low := if m = Nat.pow 2 52 ∧ q ≠ -1074 then 4 * m - 1 else 4 * m - 2
  search (4 * m) low (4 * m + 2) (m % 2 = 0) q (Fraction.ofBinary m q).exponent 17 1

/-- The digits of a natural number without the zeros at its end, and how many zeros those were. -/
def dropZeros (n : Nat) : List Char × Nat :=
  let reversed := (Nat.toDigits 10 n).reverse
  let zeros := (reversed.takeWhile (· == '0')).length
  ((reversed.drop zeros).reverse, zeros)

end Shortest

/-- How the digits of a number are set out. -/
structure Layout where
  /-- Numbers whose first digit has an exponent from `lowest` to `highest` are written without one.
  -/
  lowest : Int
  highest : Int
  /-- A written exponent has at least this many digits. -/
  exponentDigits : Nat

/-- Positional notation from one ten-thousandth to below `10 ^ 16`, exponents of two digits. -/
def Layout.plain : Layout := ⟨-4, 15, 2⟩

/-- An exponent with its sign and at least `width` digits. -/
def exponentText (width : Nat) (e : Int) : String :=
  let ds := String.ofList (Nat.toDigits 10 e.natAbs)
  (if e < 0 then "-" else "+") ++ "".pushn '0' (width - ds.length) ++ ds

/-- The number `0.d₁d₂… * 10 ^ (first + 1)` set out in a layout; `ds` holds its digits, the first of
which is not zero. -/
def Layout.text (layout : Layout) (ds : List Char) (first : Int) : String :=
  if layout.lowest ≤ first ∧ first ≤ layout.highest then
    if first < 0 then
      "0." ++ "".pushn '0' (-first - 1).toNat ++ String.ofList ds
    else
      let whole := ds.take (first.toNat + 1)
      let rest := ds.drop (first.toNat + 1)
      String.ofList whole ++ "".pushn '0' (first.toNat + 1 - ds.length) ++ "." ++
        (if rest.isEmpty then "0" else String.ofList rest)
  else
    let tail := ds.drop 1
    String.ofList (ds.take 1) ++ (if tail.isEmpty then "" else "." ++ String.ofList tail) ++ "e" ++
      exponentText layout.exponentDigits first

/-- The written form of a double: its shortest digits in the plain layout, and words for the values
that are no numbers. -/
def shortestText (x : Float) : String :=
  match Binary64.ofFloat x with
  | .nan => "nan"
  | .infinite negative => if negative then "-inf" else "inf"
  | .finite negative m q =>
    let magnitude :=
      if m = 0 then "0.0"
      else
        let (digits, place) := Shortest.digits m q
        let (ds, zeros) := Shortest.dropZeros digits
        Layout.plain.text ds (place + zeros + (ds.length - 1 : Nat))
    if negative then "-" ++ magnitude else magnitude

end BalanceFit.Decimal
