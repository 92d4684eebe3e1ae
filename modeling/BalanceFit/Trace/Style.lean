import BalanceFit.Decimal.Scientific
import BalanceFit.Trace

/-!
# Styles for doubles

## Main definitions

* `Style.full` : every figure as it is
* `Style.abridged` : vectors by their lengths alone, and totals that are lost in noise as such
-/

namespace BalanceFit.Style

/-- Totals in scientific notation, and the entries of vectors by their shortest decimals. -/
def full : Style Float where
  magnitude := Decimal.scientificText
  vector := vectorText Decimal.shortestText

/-- Totals below a hundred units of `10 ^ floor` as `~0`, and of vectors just the length. -/
def abridged (floor : Int) : Style Float where
  magnitude places x :=
    if Decimal.scientificBelow places (floor + 2) x then "~0" else Decimal.scientificText places x
  vector v := "\x7b#" ++ toString v.length ++ "\x7d"

end BalanceFit.Style
