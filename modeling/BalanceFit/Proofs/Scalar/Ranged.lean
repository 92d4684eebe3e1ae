import Mathlib.Algebra.Order.Field.Rat
import Mathlib.Tactic.NormNum
import BalanceFit.Proofs.Scalar.NonFinite

/-!
# Rational numbers of limited range

An arithmetic with infinities and NaN in which every computation can be carried out: rational
numbers up to the limit of doubles, beyond which results overflow to infinities. In contrast to
doubles nothing is rounded, and there is one zero. The functions of the generalized linear models
are those to the base two, where powers of two and whole numbers go with each other.

## Main definitions

* `Ranged` : the numbers, with `Ranged.ofRat` for the overflow of results
* `Ranged.exp`, `Ranged.log` : powers of two and their exponents
-/

namespace BalanceFit

namespace Ranged

/-- Numbers are less than this in magnitude. -/
def limit : Rat := (Nat.pow 2 1024 : Nat)

end Ranged

/-- A rational number of limited magnitude, an infinity, or no number. -/
inductive Ranged where
  | number (q : Rat) (bounded : |q| < Ranged.limit)
  | infinity (negative : Bool)
  | nan
  deriving DecidableEq

namespace Ranged

/-- The number, or the infinity that it overflows to. -/
def ofRat (q : Rat) : Ranged :=
  if h : |q| < limit then number q h else infinity (decide (q < 0))

instance : Zero Ranged := ⟨ofRat 0⟩

instance : One Ranged := ⟨ofRat 1⟩

instance : NatCast Ranged := ⟨fun n => ofRat n⟩

/-- The sum; opposite infinities have none. -/
def add : Ranged → Ranged → Ranged
  | number a _, number b _ => ofRat (a + b)
  | number _ _, infinity s => infinity s
  | infinity s, number _ _ => infinity s
  | infinity s, infinity t => if s = t then infinity s else nan
  | _, _ => nan

/-- The number with its sign changed. -/
def neg : Ranged → Ranged
  | number a _ => ofRat (-a)
  | infinity s => infinity (!s)
  | nan => nan

/-- The product; zero and infinity have none. -/
def mul : Ranged → Ranged → Ranged
  | number a _, number b _ => ofRat (a * b)
  | number a _, infinity s => if a = 0 then nan else infinity (s ^^ decide (a < 0))
  | infinity s, number b _ => if b = 0 then nan else infinity (s ^^ decide (b < 0))
  | infinity s, infinity t => infinity (s ^^ t)
  | _, _ => nan

/-- The quotient; that of zeros and that of infinities do not exist. -/
def div : Ranged → Ranged → Ranged
  | number a _, number b _ =>
    if b = 0 then if a = 0 then nan else infinity (decide (a < 0)) else ofRat (a / b)
  | number _ _, infinity _ => 0
  | infinity s, number b _ => infinity (s ^^ decide (b < 0))
  | _, _ => nan

/-- Whether the first number is at most the second. -/
def le : Ranged → Ranged → Bool
  | nan, _ => false
  | _, nan => false
  | infinity true, _ => true
  | _, infinity false => true
  | number a _, number b _ => decide (a ≤ b)
  | _, _ => false

instance : Scalar Ranged where
  add := add
  sub x y := add x (neg y)
  mul := mul
  div := div
  abs
    | number a _ => ofRat |a|
    | infinity _ => infinity false
    | nan => nan
  le := le
  lt x y := le x y && !le y x
  isZero
    | number a _ => decide (a = 0)
    | _ => false
  isFinite
    | number _ _ => true
    | _ => false
  nan := nan

/-- The power of two whose exponent is the integral part of the number. -/
def exp : Ranged → Ranged
  | number a _ =>
    if 1024 ≤ a then infinity false
    else if a < -1074 then 0
    else if 0 ≤ a then ofRat (Nat.pow 2 a.floor.toNat : Nat)
    else ofRat (1 / (Nat.pow 2 (-a.floor).toNat : Nat))
  | infinity false => infinity false
  | infinity true => 0
  | nan => nan

/-- The exponent of the largest power of two that is not greater, for numbers from one on. Numbers
below one have the exponents of their reciprocals with the other sign. -/
def log : Ranged → Ranged
  | number a _ =>
    if a = 0 then infinity true
    else if a < 0 then nan
    else if 1 ≤ a then ofRat (Nat.log2 a.floor.toNat : Nat)
    else ofRat (-(Nat.log2 (1 / a).floor.toNat : Nat))
  | infinity false => infinity false
  | infinity true => nan
  | nan => nan

instance : Transcendental Ranged where
  exp := exp
  log := log
  expit x := 1 / (1 + exp (0 - x))
  logit x := log (x / (1 - x))

theorem ofRat_of_lt {q : Rat} (bounded : |q| < limit) : ofRat q = number q bounded :=
  dif_pos bounded

theorem zero_eq : (0 : Ranged) = number 0 (by decide +kernel) :=
  ofRat_of_lt _

theorem isFinite_iff {x : Ranged} : Scalar.isFinite x = true ↔ ∃ q bounded, x = number q bounded := by
  cases x with
  | number q bounded => exact iff_of_true rfl ⟨q, bounded, rfl⟩
  | infinity s => exact iff_of_false nofun nofun
  | nan => exact iff_of_false nofun nofun

instance : Scalar.LawfulZero Ranged where
  zero_add_zero := by decide +kernel
  isFinite_zero := by decide +kernel
  isZero_zero := by decide +kernel
  le_of_isZero {x t} zero threshold := by
    rw [isThreshold, Bool.and_eq_true, isFinite_iff] at threshold
    obtain ⟨⟨q, bounded, rfl⟩, nonneg⟩ := threshold
    cases x with
    | number a _ =>
      have zero : a = 0 := of_decide_eq_true zero
      rw [zero_eq] at nonneg
      change (!(decide (q ≤ 0) && !decide (0 ≤ q))) = true at nonneg
      change decide (a ≤ q) = true
      simp only [Bool.not_and, Bool.not_not, Bool.or_eq_true, Bool.not_eq_true',
        decide_eq_false_iff_not, not_le, decide_eq_true_eq] at nonneg ⊢
      rw [zero]
      exact nonneg.elim le_of_lt id
    | infinity s => cases zero
    | nan => cases zero

theorem isFinite_of_add {x y : Ranged} (finite : Scalar.isFinite (add x y) = true) :
    Scalar.isFinite x = true ∧ Scalar.isFinite y = true := by
  match x, y with
  | number _ _, number _ _ => exact ⟨rfl, rfl⟩
  | infinity s, infinity t =>
    rw [add] at finite
    split at finite <;> cases finite
  | number _ _, infinity _ | infinity _, number _ _ | nan, _ => cases finite
  | number _ _, nan | infinity _, nan => cases finite

theorem isFinite_of_neg {x : Ranged} (finite : Scalar.isFinite (neg x) = true) :
    Scalar.isFinite x = true := by
  cases x with
  | number a _ => rfl
  | infinity s => cases finite
  | nan => cases finite

instance : Scalar.Propagates Ranged where
  of_add := isFinite_of_add
  of_sub {x y} finite := by
    obtain ⟨left, right⟩ := isFinite_of_add (x := x) (y := neg y) finite
    exact ⟨left, isFinite_of_neg right⟩
  of_mul {x y} finite := by
    change Scalar.isFinite (mul x y) = true at finite
    match x, y with
    | number _ _, number _ _ => exact ⟨rfl, rfl⟩
    | number _ _, infinity _ | infinity _, number _ _ =>
      rw [mul] at finite
      split at finite <;> cases finite
    | infinity _, infinity _ | nan, _ | number _ _, nan | infinity _, nan => cases finite
  of_abs {x} finite := by
    cases x with
    | number a _ => rfl
    | infinity s => cases finite
    | nan => cases finite
  isFinite_nan := rfl

instance : Scalar.LawfulUnits Ranged where
  isFinite_one := by decide +kernel
  add_zero_eq x := by
    rw [zero_eq]
    match x with
    | number a bounded =>
      change ofRat (a + 0) = number a bounded
      rw [add_zero, ofRat_of_lt bounded]
    | infinity _ => rfl
    | nan => rfl
  mul_zero_eq finite := by
    obtain ⟨a, bounded, rfl⟩ := isFinite_iff.1 finite
    rw [zero_eq]
    change ofRat (a * 0) = _
    rw [mul_zero, ofRat_of_lt]
  zero_mul_eq finite := by
    obtain ⟨a, bounded, rfl⟩ := isFinite_iff.1 finite
    rw [zero_eq]
    change ofRat (0 * a) = _
    rw [zero_mul, ofRat_of_lt]

end Ranged

end BalanceFit
