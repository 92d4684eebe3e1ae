import BalanceFit.Entry
import BalanceFit.Grid

/-!
# Lists of values as callers give them

Wherever a caller gives a value it may be a list of values, nested to any depth. Where numbers are
needed such a list is an array of doubles; where just one number is needed it is a fault.

## Main definitions

* `Value` : an entry, or a nested list of entries
* `Value.grid`, `Value.vector`, `Value.single` : a value as an array, as the entries of a vector, or
  as one number
* `Value.arrayOperand` : a value as an operand of arithmetic with arrays
* `Value.same`, `Value.shown`, `Value.written` : comparing and writing values entry by entry
-/

namespace BalanceFit

/-- A value as a caller gives it, alone or in a nested list. -/
abbrev Value := Nested Entry

namespace Value

/-- A value as an array of doubles. -/
def grid (v : Value) : Except Fault (Grid Float) :=
  match Grid.ofNested? v with
  | none => .error .ragged
  | some g => (g.entries.mapM Entry.toCell).map fun l => ⟨g.shape, l⟩

/-- A value as the new entries of a vector: a number, or a list in which there are no lists. -/
def vector : Value → Except Fault (Grid Float)
  | .leaf e => e.toCell.map fun x => ⟨[], [x]⟩
  | .node vs =>
    match vs.mapM Nested.leaf? with
    | some es => (es.mapM Entry.toCell).map .ofList
    | none => .error .ragged

/-- A value as one number, which a list is not. -/
def single : Value → Except Fault Float
  | .leaf e => e.toDouble
  | .node _ => .error .notANumber

/-- A value as an operand of arithmetic, which a list or a text is not. -/
def operand : Value → Except Fault Float
  | .leaf (.text _) => .error .notANumber
  | v => v.single

/-- A value as an operand of arithmetic with arrays: a number, or an array of truth values and
numbers of at most 64 bits. -/
def arrayOperand : Value → Except Fault (Grid Float)
  | .leaf .nothing | .leaf (.text _) => .error .notAnOperand
  | .leaf e => e.toDouble.map fun x => ⟨[], [x]⟩
  | v =>
    match Grid.ofNested? v with
    | none => .error .ragged
    | some g =>
      if g.entries.all Entry.isMachineNumber then v.grid else .error .notAnOperand

/-- A value as an index: a whole number, or a truth value as one or zero. -/
def index : Value → Except Fault Int
  | .leaf (.whole n) => .ok n
  | .leaf (.flag b) => .ok (if b then 1 else 0)
  | _ => .error .notANumber

/-- The whole number that a value equals, if it equals one. -/
def wholeNumber? : Value → Option Int
  | .leaf (.whole n) => some n
  | .leaf (.flag b) => some (if b then 1 else 0)
  | .leaf (.real x) => Entry.wholeOf? x
  | _ => none

/-- A value by which doubles are compared, which a list is not. -/
def comparand : Value → Except Fault Float
  | .leaf e => e.comparand
  | .node _ => .error .notANumber

/-- Whether a value counts as true: lists do unless they are empty. -/
def truthy : Value → Bool
  | .leaf e => e.truthy
  | .node vs => !vs.isEmpty

mutual

/-- Whether two values are equal, lists entry by entry. -/
def same : Value → Value → Bool
  | .leaf a, .leaf b => a.same b
  | .node vs, .node ws => sameAll vs ws
  | _, _ => false

/-- Whether the values in two lists are equal one by one. -/
def sameAll : List Value → List Value → Bool
  | [], [] => true
  | v :: vs, w :: ws => same v w && sameAll vs ws
  | _, _ => false

end

mutual

/-- A value as it is written inside another: lists in square brackets. -/
def written : Value → String
  | .leaf e => e.written
  | .node vs => "[" ++ ", ".intercalate (writtenAll vs) ++ "]"

/-- The values in a list, each as it is written inside another. -/
def writtenAll : List Value → List String
  | [] => []
  | v :: vs => written v :: writtenAll vs

end

/-- A value as it is written on its own. -/
def shown : Value → String
  | .leaf e => e.shown
  | v => v.written

end Value

end BalanceFit
