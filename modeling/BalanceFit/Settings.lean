import BalanceFit.Config
import BalanceFit.Value

/-!
# Settings

The parameters of a fit as a caller gives them. Any value is kept as it is; a check decides whether
a fit can be run with it, and names the first value that is wrong.

## Main definitions

* `Settings` : the parameters as given
* `Settings.ofFields` : the default settings with some fields given by name
* `Settings.check` : the first thing that is wrong
* `Settings.config` : the parameters as numbers
-/

namespace BalanceFit

/-- The parameters of a fit as a caller gives them. -/
structure Settings where
  epsilon : Value := .leaf (.real 1e-5)
  balanceTol : Value := .leaf (.real 1e-8)
  jacobianTol : Value := .leaf (.real 1e-8)
  stepTol : Value := .leaf (.real 1e-10)
  maxIter : Value := .leaf (.whole 100)
  verbose : Value := .leaf (.whole 0)
  history : Value := .leaf (.flag false)

namespace Settings

/-- The fields by name, in order. -/
def fields (s : Settings) : List (String × Value) :=
  [("epsilon", s.epsilon), ("balance_tol", s.balanceTol), ("jacobian_tol", s.jacobianTol),
    ("step_tol", s.stepTol), ("max_iter", s.maxIter), ("verbose", s.verbose),
    ("history", s.history)]

/-- The settings with a field replaced, if there is one of that name. -/
def set? (s : Settings) (value : Value) : String → Option Settings
  | "epsilon" => some { s with epsilon := value }
  | "balance_tol" => some { s with balanceTol := value }
  | "jacobian_tol" => some { s with jacobianTol := value }
  | "step_tol" => some { s with stepTol := value }
  | "max_iter" => some { s with maxIter := value }
  | "verbose" => some { s with verbose := value }
  | "history" => some { s with history := value }
  | _ => none

/-- The default settings with the given fields. -/
def ofFields (given : List (String × Value)) : Except Fault Settings :=
  given.foldlM (fun s (name, value) =>
    match s.set? value name with
    | some s => .ok s
    | none => .error .misfitField) {}

/-- The bound on the number of iterations: a whole number from one on. -/
def checkBound : Value → Except Fault Unit
  | .leaf (.whole n) => if n < 1 then .error (.boundNotPositive (toString n)) else .ok ()
  | v => .error (.boundNotWhole v.written)

/-- Whether an entry is a finite number. Whole numbers are taken for that within 64 bits, with or
without a sign; beyond them, and for anything else, the question has no answer. -/
def isFiniteEntry : Entry → Except Fault Bool
  | .flag _ => .ok true
  | .whole n => if Entry.isWord n then .ok true else .error .notANumber
  | .real x => .ok x.isFinite
  | _ => .error .notANumber

/-- Whether a value is a finite number. A list has an answer if it is an array of a single entry
that has one. -/
def isFinite : Value → Except Fault Bool
  | .leaf e => isFiniteEntry e
  | v =>
    match Grid.ofNested? v with
    | none => .error .ragged
    | some g => do
      match ← g.entries.mapM isFiniteEntry with
      | [b] => return b
      | _ => throw .shapeMismatch

/-- Whether a number is below zero, which cannot be asked of a list. -/
def isNegative : Value → Except Fault Bool
  | .leaf (.whole n) => .ok (decide (n < 0))
  | .leaf (.real x) => .ok (x < 0)
  | .leaf _ => .ok false
  | .node _ => .error .notANumber

/-- A threshold is finite and not negative. -/
def checkThreshold (name : String) (v : Value) : Except Fault Unit := do
  if !(← isFinite v) then throw (.badThreshold name v.shown)
  if ← isNegative v then throw (.badThreshold name v.shown)

/-- The first thing that is wrong with the settings. -/
def check (s : Settings) : Except Fault Unit := do
  checkBound s.maxIter
  checkThreshold "epsilon" s.epsilon
  checkThreshold "balance_tol" s.balanceTol
  checkThreshold "jacobian_tol" s.jacobianTol
  checkThreshold "step_tol" s.stepTol

/-- A value as a verbosity. Doubles count by the levels that they reach. -/
def verbosity : Value → Verbosity
  | .leaf (.flag b) => .level (if b then 1 else 0)
  | .leaf (.whole n) => .level n
  | .leaf (.real x) => .level (if 2 ≤ x then 2 else if 1 ≤ x then 1 else if 0 ≤ x then 0 else -1)
  | _ => .incomparable

/-- The settings as numbers, if nothing is wrong with them. -/
def config (s : Settings) : Except Fault (Config Float) := do
  s.check
  let epsilon ← s.epsilon.single
  let balanceTol ← s.balanceTol.comparand
  let jacobianTol ← s.jacobianTol.comparand
  let stepTol ← s.stepTol.comparand
  return {
    epsilon, balanceTol, jacobianTol, stepTol
    maxIter := match s.maxIter with
      | .leaf (.whole n) => n.toNat
      | _ => 1
    verbosity := verbosity s.verbose
    history := s.history.truthy }

/-- Whether two settings agree field by field. -/
def same (s t : Settings) : Bool :=
  (s.fields.zip t.fields).all fun (a, b) => a.2.same b.2

/-- The settings in writing. -/
def summary (s : Settings) : String :=
  let fields := s.fields.map fun (name, e) => name ++ "=" ++ e.written
  "FitterConfig(" ++ ", ".intercalate fields ++ ")"

end Settings

end BalanceFit
