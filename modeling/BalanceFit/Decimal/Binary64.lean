/-!
# Doubles as exact numbers

A double is NaN, an infinity, or a whole number times a power of two. The printers of this library
work on that reading with whole-number arithmetic, so that every rounding they do is exact.

## Main definitions

* `Binary64` : the value of a double, and `Binary64.ofFloat`, which reads it off the bits
* `Fraction` : a non-negative quotient of naturals, and `Fraction.roundEven`, its nearest natural
-/

namespace BalanceFit.Decimal

/-- The exact value of a double. -/
inductive Binary64 where
  | nan
  | infinite (negative : Bool)
  /-- Plus or minus `mantissa * 2 ^ exponent`. -/
  | finite (negative : Bool) (mantissa : Nat) (exponent : Int)
  deriving DecidableEq, Repr

/-- The value that the bits of a double stand for: the exponent field `2047` marks NaN and the
infinities, `0` the numbers whose leading bit is not implied. -/
def Binary64.ofFloat (x : Float) : Binary64 :=
  let bits := x.toBits.toNat
  let negative := decide (Nat.pow 2 63 ≤ bits)
  let field : Nat := bits / Nat.pow 2 52 % Nat.pow 2 11
  let fraction := bits % Nat.pow 2 52
  if field = 2047 then
    if fraction = 0 then .infinite negative else .nan
  else if field = 0 then
    .finite negative fraction (-1074)
  else
    .finite negative (Nat.pow 2 52 + fraction) ((field : Int) - 1075)

/-- A non-negative rational number, written as a quotient. -/
structure Fraction where
  num : Nat
  den : Nat
  deriving Repr

namespace Fraction

/-- The number `m * 2 ^ q`. -/
def ofBinary (m : Nat) (q : Int) : Fraction :=
  ⟨m * Nat.pow 2 q.toNat, Nat.pow 2 (-q).toNat⟩

/-- The number divided by `10 ^ p`. -/
def shift (x : Fraction) (p : Int) : Fraction :=
  ⟨x.num * Nat.pow 10 (-p).toNat, x.den * Nat.pow 10 p.toNat⟩

/-- The nearest natural number; of two equally near, the even one. -/
def roundEven (x : Fraction) : Nat :=
  let low := x.num / x.den
  let twice := 2 * (x.num % x.den)
  if twice < x.den then low
  else if x.den < twice then low + 1
  else low + low % 2

/-- The exponent `e` of a positive number between `10 ^ e` and `10 ^ (e + 1)`, the first included:
the lengths of numerator and denominator leave two candidates. -/
def exponent (x : Fraction) : Int :=
  let guess : Int := (Nat.toDigits 10 x.num).length - (Nat.toDigits 10 x.den).length
  let y := x.shift guess
  if y.den ≤ y.num then guess else guess - 1

/-- A positive number rounded to `count` significant digits: the digits as a natural number of
exactly that length, and the decimal exponent of the first of them. -/
def significant (x : Fraction) (count : Nat) : Nat × Int :=
  let e := x.exponent
  let digits := (x.shift (e - (count - 1 : Nat))).roundEven
  if digits = Nat.pow 10 count then (Nat.pow 10 (count - 1), e + 1) else (digits, e)

end Fraction

end BalanceFit.Decimal
