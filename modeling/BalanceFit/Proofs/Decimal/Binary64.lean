import Mathlib
import BalanceFit.Decimal.Binary64

/-!
# The value of a double determines it

A value has a double of its own, and that of a double's value is the double again, since there is
only one NaN. The mantissas of finite doubles are as long as they can be: 53 bits, or less at the
lowest exponent.

## Main definitions

* `Canonical` : mantissas and exponents as doubles have them
* `Binary64.toFloat` : the double of a value

## Main statements

* `Binary64.toFloat_ofFloat` : a double is that of its value
* `Binary64.canonical_of_ofFloat` : the mantissa and the exponent of a finite double
* `Binary64.unpack_pack` : what the bits of a finite double stand for
-/

namespace BalanceFit.Decimal

open Float.Model (Format UnpackedFloat)
open Float.Model.UnpackedFloat

/-- Mantissas and exponents as doubles have them: a mantissa has 53 bits, unless the exponent is the
lowest. -/
structure Canonical (m : ℕ) (q : ℤ) : Prop where
  lt : m < 2 ^ 53
  lowest_le : -1074 ≤ q
  long : 2 ^ 52 ≤ m ∨ q = -1074

namespace Binary64

/-- The sign of a number. -/
def signOf (negative : Bool) : Sign := if negative then .negative else .positive

/-- A value in the form in which doubles are computed with. -/
def toUnpacked : Binary64 → UnpackedFloat
  | nan => .notANumber
  | infinite negative => .infinity (signOf negative)
  | finite negative m q =>
    if h : m = 0 then .zero (signOf negative)
    else .finite (signOf negative) m q (Nat.pos_of_ne_zero h)

/-- The double of a value. -/
def toFloat (v : Binary64) : Float := .ofModel (.pack v.toUnpacked)

variable {m : ℕ} {q : ℤ}

theorem toUnpacked_zero (negative : Bool) (q : ℤ) :
    (finite negative 0 q).toUnpacked = .zero (signOf negative) := rfl

theorem toUnpacked_finite (negative : Bool) (pos : 0 < m) :
    (finite negative m q).toUnpacked = .finite (signOf negative) m q pos := dif_neg pos.ne'

theorem signOf_false : signOf false = .positive := rfl

theorem toFloat_finite (negative : Bool) (pos : 0 < m) :
    (finite negative m q).toFloat = .ofModel (.pack (.finite (signOf negative) m q pos)) := by
  rw [toFloat, toUnpacked_finite negative pos]

/-- The mantissa and the exponent of a finite double. -/
theorem canonical_of_ofFloat {x : Float} {negative : Bool}
    (value : ofFloat x = .finite negative m q) : Canonical m q ∧ q ≤ 971 := by
  simp only [ofFloat, Nat.pow_eq] at value
  split_ifs at value with special empty small <;> cases value
  · exact ⟨⟨by omega, le_rfl, .inr rfl⟩, by decide⟩
  · exact ⟨⟨by omega, by omega, .inl (by omega)⟩, by omega⟩

/-! ### Bits -/

theorem toNat_unpackMantissa (b : BitVec 64) :
    (unpackMantissa b : BitVec Format.binary64.mantissaBitsWithoutImplicit).toNat =
      b.toNat % 2 ^ 52 := by
  simp [unpackMantissa]

theorem toNat_unpackExponent (b : BitVec 64) :
    (unpackExponent b : BitVec Format.binary64.exponentBits).toNat =
      b.toNat / 2 ^ 52 % 2 ^ 11 := by
  simp [unpackExponent, Nat.shiftRight_eq_div_pow]

/-- The sign bit is the first of the bits of a double. -/
theorem ofBitVec_unpackSign (b : BitVec Format.binary64.numBits) :
    Sign.ofBitVec (unpackSign b) = signOf (decide (2 ^ 63 ≤ b.toNat)) := by
  have below : b.toNat < 2 ^ 64 := b.isLt
  have bit : unpackSign b = BitVec.ofNat 1 (b.toNat / 2 ^ 63) := by
    rw [unpackSign_def, ← BitVec.toNat_inj, BitVec.extractLsb'_toNat, Nat.shiftRight_eq_div_pow]
    rfl
  rw [bit]
  by_cases h : 2 ^ 63 ≤ b.toNat
  · rw [decide_eq_true h, show b.toNat / 2 ^ 63 = 1 by omega]
    rfl
  · rw [decide_eq_false h, show b.toNat / 2 ^ 63 = 0 by omega]
    rfl

/-- The fields of a double make it up. -/
theorem packComponents_eq {b : BitVec 64} {e : BitVec 11} {f : BitVec 52}
    (field : b.toNat / 2 ^ 52 % 2 ^ 11 = e.toNat) (fraction : b.toNat % 2 ^ 52 = f.toNat) :
    packComponents Format.binary64 (signOf (decide (2 ^ 63 ≤ b.toNat))) e f = b := by
  rw [← toNat_unpackExponent, BitVec.toNat_inj] at field
  rw [← toNat_unpackMantissa, BitVec.toNat_inj] at fraction
  rw [← field, ← fraction]
  exact (congrArg (packComponents Format.binary64 · _ _) (ofBitVec_unpackSign b).symm).trans
    (packComponents_unpackSign_unpackExponent_unpackMantissa _)

/-- The bits of a finite double: the leading bit of a long mantissa is not among them. -/
theorem pack_finite (canonical : Canonical m q) (bounded : q ≤ 971) (s : Sign) (pos : 0 < m) :
    pack Format.binary64 (.finite s m q pos) =
      packComponents Format.binary64 s
        (BitVec.ofNat 11 (if 2 ^ 52 ≤ m then (q + 1075).toNat else 0)) (BitVec.ofNat 52 m) := by
  have biased : (q + (Format.binary64.exponentBias : ℤ) +
      (Format.binary64.mantissaBitsWithoutImplicit : ℤ)).toNat = (q + 1075).toNat := by
    rw [add_assoc]
    rfl
  have bits : Format.binary64.mantissaBits = 53 := rfl
  simp only [pack, biased, bits]
  rw [if_neg (show ¬ 2 ^ 11 ≤ (q + 1075).toNat + 1 by omega)]
  by_cases h : 2 ^ 52 ≤ m
  · have : m.log2 = 52 := (Nat.log2_eq_iff pos.ne').2 ⟨h, canonical.lt⟩
    rw [if_pos h, if_pos (by omega)]
  · have : m.log2 < 52 := (Nat.log2_lt pos.ne').2 (not_le.1 h)
    rw [if_neg h, if_neg (by omega)]

/-- The bits of the value of a double are those of the double. -/
theorem pack_ofFloat (x : Float) :
    pack Format.binary64 (ofFloat x).toUnpacked = x.toModel.toBits.toBitVec := by
  have finite {negative m q} (value : ofFloat x = .finite negative m q) :=
    canonical_of_ofFloat value
  have valid := x.toModel.valid.eq_packedNaN
  have bits : x.toBits.toNat = x.toModel.toBits.toBitVec.toNat := rfl
  simp only [ofFloat, bits, Nat.pow_eq] at finite ⊢
  generalize x.toModel.toBits.toBitVec = b at finite valid
  split_ifs at finite ⊢ with special empty small
  · exact packComponents_eq special empty
  · -- Any NaN is the one that doubles have.
    refine (valid ?_ ?_).symm
    · rw [← BitVec.toNat_inj, toNat_unpackExponent, special]
      rfl
    · rwa [ne_eq, ← BitVec.toNat_inj, toNat_unpackMantissa]
  · obtain ⟨canonical, bounded⟩ := finite rfl
    by_cases zero : b.toNat % 2 ^ 52 = 0
    · rw [zero, toUnpacked_zero]
      exact packComponents_eq small zero
    · rw [toUnpacked_finite _ (Nat.pos_of_ne_zero zero), pack_finite canonical bounded]
      refine packComponents_eq ?_ ?_
      · rw [if_neg (by omega), small]
        rfl
      · rw [BitVec.toNat_ofNat, Nat.mod_mod]
  · obtain ⟨canonical, bounded⟩ := finite rfl
    rw [toUnpacked_finite _ (by omega), pack_finite canonical bounded]
    refine packComponents_eq ?_ ?_
    · rw [if_pos (by omega), BitVec.toNat_ofNat]
      omega
    · rw [BitVec.toNat_ofNat]
      omega

/-- **The value of a double determines it.** -/
theorem toFloat_ofFloat (x : Float) : (ofFloat x).toFloat = x := by
  have same := pack_ofFloat x
  obtain ⟨⟨bits, valid⟩⟩ := x
  simp only [toFloat, Float.Model.pack, same]

/-- With the leading bit that is not among the bits of a double. -/
theorem toNat_implied (f : BitVec 52) : (1#1 ++ f).toNat = 2 ^ 52 + f.toNat := by
  rw [BitVec.toNat_append, ← Nat.shiftLeft_add_eq_or_of_lt f.isLt]
  rfl

/-- What the bits of a finite double stand for. -/
theorem unpack_pack (canonical : Canonical m q) (bounded : q ≤ 971) (s : Sign) (pos : 0 < m) :
    unpack Format.binary64 (pack Format.binary64 (.finite s m q pos)) = .finite s m q pos := by
  have bias : (Format.binary64.exponentBias : ℤ) + (52 : ℕ) = 1075 := rfl
  have allOnes : (-1#11).toNat = 2047 := rfl
  obtain ⟨lt, lowest_le, long⟩ := canonical
  rw [pack_finite ⟨lt, lowest_le, long⟩ bounded, unpack]
  simp only [unpackMantissa_packComponents, unpackExponent_packComponents,
    unpackSign_packComponents, Sign.ofBitVec_toBitVec,
    toNat_implied, ← BitVec.toNat_inj, BitVec.toNat_ofNat, bias, allOnes]
  by_cases normal : 2 ^ 52 ≤ m
  · simp only [if_pos normal]
    rw [if_neg (by omega), if_neg (by omega)]
    congr 1 <;> omega
  · simp only [if_neg normal]
    rw [if_neg (by decide), if_pos (by decide), dif_neg (by omega)]
    congr 1 <;> omega

theorem unpack_toFloat (canonical : Canonical m q) (bounded : q ≤ 971) (negative : Bool)
    (pos : 0 < m) :
    (finite negative m q).toFloat.toModel.unpack = .finite (signOf negative) m q pos := by
  rw [toFloat_finite negative pos]
  exact unpack_pack canonical bounded _ pos

/-- A finite double without its sign has the same double with the sign as its negative. -/
theorem neg_toFloat (canonical : Canonical m q) (bounded : q ≤ 971) :
    -(finite false m q).toFloat = (finite true m q).toFloat := by
  rcases Nat.eq_zero_or_pos m with rfl | pos
  · change -Float.ofModel (.pack (.zero .positive)) = Float.ofModel (.pack (.zero .negative))
    decide
  · rw [toFloat_finite true pos]
    change Float.ofModel (.pack (finite false m q).toFloat.toModel.unpack.neg) = _
    rw [unpack_toFloat canonical bounded false pos]
    rfl

end Binary64

end BalanceFit.Decimal
