import BalanceFit.Model.Family
import BalanceFit.Model.Given
import BalanceFit.Value

/-!
# Responses as callers give them

A fit links the responses of a store, which are doubles. The link of a family, and any other link,
can also be asked about values as a caller gives them.

## Main definitions

* `Family.linkOf` : the link of a family for a value
* `Link.linkOf` : any other link for a value
-/

namespace BalanceFit

/-- The double that a number stands for; whole numbers beyond all doubles stand for infinities. -/
def Entry.saturated : Entry → Except Fault Float
  | .whole n => match Decimal.wholeFloat? n with
    | some x => .ok x
    | none => .ok (if n < 0 then -1 / 0 else 1 / 0)
  | e => e.toDouble

/-- What keeps a list from being clipped: it is no array, or holds texts where all else is numbers
of at most 64 bits; or, if it could be clipped, that the result is not one number. -/
def clippingFault (v : Value) : Fault :=
  let isText : Entry → Bool
    | .text _ => true
    | _ => false
  match Grid.ofNested? v with
  | none => .ragged
  | some g =>
    if g.entries.any isText && g.entries.all fun e => isText e || e.isMachineNumber
    then .notAnOperand
    else .notANumber

/-- The number whose logarithm a value asks for: texts have none, and whole numbers only those of at
most 64 bits. -/
def Entry.antilogarithm : Entry → Except Fault Float
  | .whole n => if Entry.isWord n then (Entry.whole n).toDouble else .error .notANumber
  | .text _ => .error .notANumber
  | e => e.toDouble

/-- The number nearest to `e` from `low` to `high`, one of the three as it was given. -/
def Entry.clipped (low high e : Entry) : Entry :=
  let raised := if low.atMost e then e else low
  if raised.atMost high then raised else high

/-- The family, whose clip comes as a caller gives it, with a number for its clip. -/
def Family.numeric : Family Value → Except Fault (Family Float)
  | linear => .ok .linear
  | logistic clip => .logistic <$> clip.operand
  | poisson => .ok .poisson

/-- The response that logistic regression transforms. Whole numbers of more than 64 bits are clipped
first, and have a logarithm only if that changes them. -/
def Entry.chance (clip : Value) (high : Float) : Entry → Except Fault Float
  | .text _ => .error .notAnOperand
  | .whole n =>
    match clip with
    | .leaf low =>
      if Entry.isWord n then (Entry.whole n).toDouble
      else (Entry.clipped low (.real high) (.whole n)).antilogarithm
    | .node _ => .error .notANumber
  | e => e.toDouble

/-- The linear predictor for a value. Linear models take what reads as a number. Logistic regression
clips numbers of any size. Poisson regression takes the logarithm of whole numbers of at most 64
bits; all that are less than its least count are replaced. -/
def Family.linkOf (f : Family Value) (v : Value) : Except Fault Float := do
  let g ← f.numeric
  g.link <$> match f, g, v with
    | linear, _, v => v.single
    | logistic clip, logistic low, .leaf e => e.chance clip (1 - low)
    | logistic _, _, v => .error (clippingFault v)
    | poisson, _, .leaf (.text _) => .error .notANumber
    | poisson, _, .leaf (.whole n) =>
      if n < Nat.pow 2 64 then (Entry.whole n).saturated else .error .notANumber
    | poisson, _, .leaf e => e.toDouble
    | poisson, _, .node _ => .error .notANumber

/-- The transformed value. The identity makes an array of it, the logarithm is that of one number,
and a constant is an array whatever the value. -/
def Link.linkOf : Link Value → Value → Except Fault (Grid Float)
  | identity, v => v.grid
  | log, .leaf e => e.antilogarithm.map fun x => ⟨[], [Transcendental.log x]⟩
  | log, v => .error (if (Grid.ofNested? v).isNone then .ragged else .notANumber)
  | const value, _ => value.grid

/-- The link whose constant, if it has one, is a number as far as it is one. -/
def Link.numeric : Link Value → Link (Except Fault Float)
  | identity => .identity
  | log => .log
  | const value => .const value.single

end BalanceFit
