import BalanceFit.Text.Digit

/-!
# Reading numbers

Text is read as a double: a decimal number with an optional exponent, where underscores may separate
digits, or one of the words for the values that are no numbers; blanks around it are ignored, and
digits may be those of any script. Whole numbers of any size are rounded to the nearest double.

## Main definitions

* `readFloat?` : the double that a text stands for, if it stands for one
* `wholeFloat?` : the double nearest to a whole number, if it is in range
-/

namespace BalanceFit.Decimal

namespace Reading

/-- The characters that may surround a number. -/
def isBlank (c : Char) : Bool :=
  c.isWhitespace || c == '\x0b' || c == '\x0c' || c == '\x85' || c == '\xa0' || c == '\u1680' ||
    ('\u2000' ≤ c && c ≤ '\u200a') || c == '\u2028' || c == '\u2029' || c == '\u202f' ||
    c == '\u205f' || c == '\u3000'

/-- The text without blanks at its ends. -/
def trim (cs : List Char) : List Char :=
  ((cs.dropWhile isBlank).reverse.dropWhile isBlank).reverse

/-- Splits a leading sign off: whether it is a minus, and the rest. -/
def sign : List Char → Bool × List Char
  | '-' :: cs => (true, cs)
  | '+' :: cs => (false, cs)
  | cs => (false, cs)

/-- The digits at the front, without the underscores between them, and what follows. An underscore
counts only between two digits. -/
def digits : List Char → List Char × List Char
  | c :: '_' :: d :: cs =>
    if c.isDigit && d.isDigit then
      let (ds, rest) := digits (d :: cs)
      (c :: ds, rest)
    else if c.isDigit then ([c], '_' :: d :: cs)
    else ([], c :: '_' :: d :: cs)
  | c :: cs =>
    if c.isDigit then
      let (ds, rest) := digits cs
      (c :: ds, rest)
    else ([], c :: cs)
  | [] => ([], [])

/-- The natural number that a run of digits stands for. -/
def value (ds : List Char) : Nat :=
  ds.foldl (fun n c => 10 * n + (c.toNat - '0'.toNat)) 0

/-- The exponent at the end of a number, `0` if there is none; `none` if the text is anything else.
-/
def exponent? : List Char → Option Int
  | [] => some 0
  | c :: cs =>
    if c == 'e' || c == 'E' then
      let (negative, rest) := sign cs
      match digits rest with
      | ([], _) => none
      | (ds, []) => some (if negative then -(value ds : Int) else value ds)
      | _ => none
    else none

/-- The double nearest to `n * 10 ^ e`. Exponents far outside the range of a double are decided
without computing the power. -/
def scaled (n : Nat) (e : Int) : Float :=
  let top : Int := (Nat.toDigits 10 n).length + e
  if n = 0 ∨ top < -400 then 0
  else if 400 < top then Float.ofScientific 1 false 400
  else Float.ofScientific n (decide (e < 0)) e.natAbs

/-- An unsigned number: digits, perhaps a point and digits, perhaps an exponent, with a digit on one
side of the point at least. -/
def magnitude? (cs : List Char) : Option Float :=
  let (whole, rest) := digits cs
  let (fraction, rest) := match rest with
    | '.' :: more => digits more
    | _ => ([], rest)
  if whole.isEmpty && fraction.isEmpty then none
  else (exponent? rest).map fun e => scaled (value (whole ++ fraction)) (e - fraction.length)

end Reading

/-- The double that a text stands for. -/
def readFloat? (text : String) : Option Float :=
  let (negative, cs) := Reading.sign ((Reading.trim text.toList).map Text.westernDigit)
  let word := String.ofList (cs.map Char.toLower)
  let magnitude :=
    if word == "inf" || word == "infinity" then some (1 / 0)
    else if word == "nan" then some (0 / 0)
    else Reading.magnitude? cs
  magnitude.map fun x => if negative then -x else x

/-- The double nearest to a whole number, ties to even; `none` where that is beyond the largest. -/
def wholeFloat? (n : Int) : Option Float :=
  if Nat.pow 2 1024 - Nat.pow 2 970 ≤ n.natAbs then none else some (Float.ofInt n)

end BalanceFit.Decimal
