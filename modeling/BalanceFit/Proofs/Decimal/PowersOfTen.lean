import BalanceFit.Proofs.Decimal.Digits
import BalanceFit.Proofs.Decimal.Rounding

/-!
# Decimal numbers become the nearest doubles

A whole number times a power of ten is computed in one of two ways. Where both are doubles, a single
product or quotient of doubles gives the result; otherwise the product or the quotient is formed of
whole numbers. Either is rounded once, so the result is the double to which the number rounds. The
guards against huge powers only concern numbers to which no double is near.

## Main definitions

* `Equals` : what it means for a positive double to be a given number

## Main statements

* `ofScientific_eq` : a decimal number becomes the double to which it rounds
* `Reading.scaled_eq` : a decimal number is read as the double to which it rounds
-/

namespace BalanceFit.Decimal

open Float.Model (Format UnpackedFloat)
open Float.Model.UnpackedFloat

variable {m : ℕ} {q : ℤ} {r r' : ℚ} {x y : Float}

/-- A double is a positive number, and its mantissa has all of its bits. -/
def Equals (x : Float) (r : ℚ) : Prop :=
  ∃ (m : ℕ) (q : ℤ) (pos : 0 < m),
    x.toModel.unpack = .finite .positive m q pos ∧ 2 ^ 52 ≤ m ∧ m * 2 ^ q = r

namespace Equals

/-- The double of a product is the one to which the product rounds. -/
theorem mul (hx : Equals x r) (hy : Equals y r') (canonical : Canonical m q) (pos : 0 < m)
    (rounds : RoundsTo m q (r * r')) : x * y = (Binary64.finite false m q).toFloat := by
  obtain ⟨m₁, q₁, pos₁, unpack₁, long₁, rfl⟩ := hx
  obtain ⟨m₂, q₂, pos₂, unpack₂, -, rfl⟩ := hy
  rw [Binary64.toFloat_finite false pos, Binary64.signOf_false,
    ← mul_eq canonical pos long₁ pos₁ pos₂ rounds, ← unpack₁, ← unpack₂]
  rfl

/-- The double of a quotient is the one to which the quotient rounds. -/
theorem div (hx : Equals x r) (hy : Equals y r') (canonical : Canonical m q) (pos : 0 < m)
    (rounds : RoundsTo m q (r / r')) : x / y = (Binary64.finite false m q).toFloat := by
  obtain ⟨m₁, q₁, pos₁, unpack₁, -, rfl⟩ := hx
  obtain ⟨m₂, q₂, pos₂, unpack₂, -, rfl⟩ := hy
  rw [Binary64.toFloat_finite false pos, Binary64.signOf_false,
    ← div_eq canonical pos pos₁ pos₂ rounds, ← unpack₁, ← unpack₂]
  rfl

end Equals

/-- A natural number whose bits behind the 53 leading ones are zeros, with a mantissa that has all
of its bits. -/
theorem normalized {n : ℕ} (nonzero : n ≠ 0) (exact : 2 ^ n.log2 ∣ n * 2 ^ 52) :
    2 ^ 52 ≤ n * 2 ^ 52 / 2 ^ n.log2 ∧ n * 2 ^ 52 / 2 ^ n.log2 < 2 ^ 53 ∧
      ((n * 2 ^ 52 / 2 ^ n.log2 : ℕ) : ℚ) * 2 ^ ((n.log2 : ℤ) - 52) = n := by
  have unit := Nat.two_pow_pos n.log2
  refine ⟨?_, ?_, ?_⟩
  · rw [Nat.le_div_iff_mul_le unit, mul_comm]
    exact Nat.mul_le_mul_right _ (Nat.log2_self_le nonzero)
  · rw [Nat.div_lt_iff_lt_mul unit, pow_succ 2 52, mul_assoc, ← pow_succ', mul_comm]
    exact Nat.mul_lt_mul_of_pos_left Nat.lt_log2_self (Nat.two_pow_pos 52)
  · rw [Nat.cast_div exact (by positivity), zpow_sub₀ two_ne_zero, zpow_natCast]
    push_cast
    field_simp

/-- Natural numbers whose bits behind the 53 leading ones are zeros are doubles. -/
theorem equals_of_dvd {n : ℕ} (nonzero : n ≠ 0) (exact : 2 ^ n.log2 ∣ n * 2 ^ 52)
    (bounded : n.log2 ≤ 1023)
    (same : x = (Binary64.finite false (n * 2 ^ 52 / 2 ^ n.log2) (n.log2 - 52)).toFloat) :
    Equals x n := by
  obtain ⟨long, short, value⟩ := normalized nonzero exact
  refine ⟨_, _, (Nat.two_pow_pos 52).trans_le long, ?_, long, value⟩
  rw [same]
  exact Binary64.unpack_toFloat ⟨short, by omega, .inl long⟩ (by omega) false _

/-- Natural numbers of up to 53 bits are doubles. -/
theorem equals_ofNat {n : ℕ} (nonzero : n ≠ 0) (fits : n < 2 ^ 53) :
    Equals n.toUInt64.toFloat n := by
  have log : n.log2 ≤ 52 := Nat.le_of_lt_succ ((Nat.log2_lt nonzero).2 fits)
  have exact : 2 ^ n.log2 ∣ n * 2 ^ 52 := Dvd.dvd.mul_left (pow_dvd_pow 2 log) n
  have whole : n.toUInt64.toNat = n := by
    rw [Nat.toUInt64, UInt64.toNat_ofNat']
    omega
  obtain ⟨long, short, value⟩ := normalized nonzero exact
  have pos := (Nat.two_pow_pos 52).trans_le long
  have rounds := RoundsTo.self (q := n.log2 - 52) pos
  rw [value, ← mul_one (n : ℚ), ← zpow_zero 2] at rounds
  refine equals_of_dvd nonzero exact (by omega) ?_
  rw [Binary64.toFloat_finite false pos, Binary64.signOf_false,
    ← round_eq ⟨short, by omega, .inl long⟩ pos nonzero rounds]
  have converted : ofUInt64 Format.binary64 n.toUInt64 =
      UnpackedFloat.round Format.binary64 .positive n 0 := by
    simp only [ofUInt64, ofNat, ofInt, UnpackedFloat.normalize, whole, Int.toNat_natCast,
      Int.compare_eq_gt.2 (Int.natCast_pos.2 (Nat.pos_of_ne_zero nonzero))]
  exact congrArg (fun u => Float.ofModel (.pack u)) converted

/-- The table of the powers of ten that are doubles. -/
theorem powersOfTen_eq : ∀ e : Fin Float.exactlyRepresentablePowersOfTen.size,
    2 ^ (10 ^ e.val).log2 ∣ 10 ^ e.val * 2 ^ 52 ∧ (10 ^ e.val).log2 ≤ 1023 ∧
    Float.exactlyRepresentablePowersOfTen[e] =
      (Binary64.finite false (10 ^ e.val * 2 ^ 52 / 2 ^ (10 ^ e.val).log2)
        ((10 ^ e.val).log2 - 52)).toFloat := by
  decide

/-- The powers of ten that are doubles. -/
theorem equals_powerOfTen {e : ℕ} (small : e < Float.exactlyRepresentablePowersOfTen.size) :
    Equals Float.exactlyRepresentablePowersOfTen[e] (10 ^ e) := by
  obtain ⟨exact, bounded, same⟩ := powersOfTen_eq ⟨e, small⟩
  exact_mod_cast equals_of_dvd (by positivity) exact bounded same

variable {n k : ℕ} {e : ℤ}

/-- Where a power of ten is too large to be computed with, its multiples are beyond the doubles. -/
theorem exponent_le_of_mul (canonical : Canonical m q) (bounded : q ≤ 971) (nonzero : n ≠ 0)
    (rounds : RoundsTo m q (n * 10 ^ k)) : k ≤ 1024 := by
  by_contra! large
  refine (rounds.lt_two_pow canonical bounded).not_ge ?_
  calc (2 : ℚ) ^ (1024 : ℤ) ≤ 2 ^ (k : ℤ) := zpow_le_zpow_right₀ one_le_two (by omega)
    _ = 2 ^ k := zpow_natCast _ _
    _ ≤ 10 ^ k := by gcongr; norm_num
    _ ≤ n * 10 ^ k := le_mul_of_one_le_left (by positivity) (by exact_mod_cast (by omega))

/-- Where a power of ten is too large to be computed with, quotients by it are below the doubles. -/
theorem exponent_le_of_div (canonical : Canonical m q) (pos : 0 < m)
    (rounds : RoundsTo m q (n / 10 ^ k)) : k ≤ 1076 + n.log2 := by
  by_contra! large
  refine (rounds.two_pow_le canonical pos).not_gt ?_
  rw [div_lt_iff₀ (by positivity)]
  calc (n : ℚ) < (2 ^ (n.log2 + 1) : ℕ) := by exact_mod_cast Nat.lt_log2_self
    _ = 2 ^ ((n.log2 : ℤ) + 1) := by rw [Nat.cast_pow, ← zpow_natCast]; rfl
    _ ≤ 2 ^ (-1075 + (k : ℤ)) := zpow_le_zpow_right₀ one_le_two (by omega)
    _ = 2 ^ (-1075 : ℤ) * 2 ^ k := by rw [zpow_add₀ two_ne_zero, zpow_natCast]
    _ ≤ 2 ^ (-1075 : ℤ) * 10 ^ k := by gcongr; norm_num

/-- A multiple of a power of ten, formed of whole numbers, is rounded to nearest. -/
theorem ofScientific_mul (canonical : Canonical m q) (bounded : q ≤ 971) (pos : 0 < m)
    (nonzero : n ≠ 0) (rounds : RoundsTo m q (n * 10 ^ k)) :
    ofScientific Format.binary64 n k = .finite .positive m q pos := by
  have := exponent_le_of_mul canonical bounded nonzero rounds
  have range : (2 ^ Format.binary64.exponentBits : ℤ) = 2048 := rfl
  have bits : Format.binary64.mantissaBits = 53 := rfl
  simp only [ofScientific, range, bits]
  rw [dif_neg nonzero, if_neg (by omega), if_neg (by omega), if_pos (by omega)]
  refine mul_eq canonical pos ?_ _ _ ?_
  · rw [Nat.shiftLeft_eq]
    omega
  · have value : ((n <<< 53 : ℕ) : ℚ) * 2 ^ (-((53 : ℕ) : ℤ)) *
        ((10 ^ (k : ℤ).toNat : ℕ) * 2 ^ (0 : ℤ)) = n * 10 ^ k := by
      rw [Nat.shiftLeft_eq, Int.toNat_natCast, zpow_neg, zpow_natCast, zpow_zero]
      push_cast
      field_simp
      norm_num
    rwa [value]

/-- A quotient by a power of ten, formed of whole numbers, is rounded to nearest. -/
theorem ofScientific_div (canonical : Canonical m q) (pos : 0 < m) (nonzero : n ≠ 0)
    (proper : k ≠ 0) (rounds : RoundsTo m q (n / 10 ^ k)) :
    ofScientific Format.binary64 n (-k) = .finite .positive m q pos := by
  have := exponent_le_of_div canonical pos rounds
  have range : (2 ^ Format.binary64.exponentBits : ℤ) = 2048 := rfl
  simp only [ofScientific, range]
  rw [dif_neg nonzero, if_neg (by omega), if_neg (by omega), if_neg (by omega)]
  refine div_eq canonical pos _ _ ?_
  have value : (n : ℚ) * 2 ^ (0 : ℤ) / ((10 ^ (- -(k : ℤ)).toNat : ℕ) * 2 ^ (0 : ℤ)) =
      n / 10 ^ k := by
    rw [neg_neg, Int.toNat_natCast, zpow_zero, mul_one, mul_one, Nat.cast_pow]
    norm_num
  rwa [value]

/-- **Decimal numbers become the nearest doubles.** -/
theorem ofScientific_eq (canonical : Canonical m q) (bounded : q ≤ 971) (pos : 0 < m)
    (rounds : RoundsTo m q (n * 10 ^ e)) :
    Float.ofScientific n (decide (e < 0)) e.natAbs = (Binary64.finite false m q).toFloat := by
  have nonzero : n ≠ 0 := by
    rintro rfl
    exact (rounds.pos_of_pos pos).ne' (by rw [Nat.cast_zero, zero_mul])
  rcases lt_or_ge e 0 with negative | nonnegative
  · obtain ⟨k, rfl⟩ := Int.exists_eq_neg_ofNat negative.le
    have proper : k ≠ 0 := by omega
    rw [zpow_neg, zpow_natCast, ← div_eq_mul_inv] at rounds
    rw [decide_eq_true negative, Int.natAbs_neg, Int.natAbs_natCast, Float.ofScientific]
    by_cases short : n < 2 ^ 53 ∧ k ≤ 22
    · rw [dif_pos short, if_pos rfl]
      exact (equals_ofNat nonzero short.1).div (equals_powerOfTen (Nat.lt_succ_of_le short.2))
        canonical pos rounds
    · rw [dif_neg short, if_pos rfl, Binary64.toFloat_finite false pos, Binary64.signOf_false,
        ← ofScientific_div canonical pos nonzero proper rounds]
      rfl
  · obtain ⟨k, rfl⟩ := Int.eq_ofNat_of_zero_le nonnegative
    rw [zpow_natCast] at rounds
    rw [decide_eq_false nonnegative.not_gt, Int.natAbs_natCast, Float.ofScientific]
    by_cases short : n < 2 ^ 53 ∧ k ≤ 22
    · rw [dif_pos short, if_neg Bool.false_ne_true]
      exact (equals_ofNat nonzero short.1).mul (equals_powerOfTen (Nat.lt_succ_of_le short.2))
        canonical pos rounds
    · rw [dif_neg short, if_neg Bool.false_ne_true, Binary64.toFloat_finite false pos,
        Binary64.signOf_false, ← ofScientific_mul canonical bounded pos nonzero rounds]
      rfl

namespace Reading

/-- Ten is more than the third power of two. -/
theorem two_pow_le_ten_pow (k : ℕ) : (2 : ℚ) ^ (3 * k : ℤ) ≤ 10 ^ (k : ℤ) := by
  rw [zpow_mul, zpow_natCast, zpow_natCast]
  gcongr
  norm_num

/-- Decimal numbers are read as the nearest doubles: the exponents that are decided without
computing a power belong to numbers beyond the doubles. -/
theorem scaled_eq (canonical : Canonical m q) (bounded : q ≤ 971) (pos : 0 < m)
    (rounds : RoundsTo m q (n * 10 ^ e)) : scaled n e = (Binary64.finite false m q).toFloat := by
  have nonzero : n ≠ 0 := by
    rintro rfl
    exact (rounds.pos_of_pos pos).ne' (by rw [Nat.cast_zero, zero_mul])
  have digits : 0 < (Nat.toDigits 10 n).length := List.length_pos_iff.2 Nat.toDigits_ne_nil
  have notSmall : ¬ ((Nat.toDigits 10 n).length + e : ℤ) < -400 := by
    intro small
    refine (rounds.two_pow_le canonical pos).not_gt ?_
    calc (n : ℚ) * 10 ^ e < (10 ^ (Nat.toDigits 10 n).length : ℕ) * 10 ^ e := by
          gcongr
          exact lt_ten_pow_length n
      _ = 10 ^ ((Nat.toDigits 10 n).length + e : ℤ) := by
        rw [zpow_add₀ (by norm_num), zpow_natCast, Nat.cast_pow, Nat.cast_ofNat]
      _ ≤ 10 ^ (-(400 : ℕ) : ℤ) := zpow_le_zpow_right₀ (by norm_num) (by omega)
      _ ≤ 2 ^ (-(3 * (400 : ℕ)) : ℤ) := by
        rw [zpow_neg, zpow_neg]
        exact inv_anti₀ (by positivity) (two_pow_le_ten_pow 400)
      _ ≤ 2 ^ (-1075 : ℤ) := zpow_le_zpow_right₀ one_le_two (by norm_num)
  have notLarge : ¬ 400 < ((Nat.toDigits 10 n).length + e : ℤ) := by
    intro large
    refine (rounds.lt_two_pow canonical bounded).not_ge ?_
    calc (2 : ℚ) ^ (1024 : ℤ) ≤ 2 ^ (3 * (400 : ℕ) : ℤ) :=
          zpow_le_zpow_right₀ one_le_two (by norm_num)
      _ ≤ 10 ^ ((400 : ℕ) : ℤ) := two_pow_le_ten_pow 400
      _ ≤ 10 ^ (((Nat.toDigits 10 n).length - 1 : ℕ) + e : ℤ) :=
        zpow_le_zpow_right₀ (by norm_num) (by omega)
      _ = (10 ^ ((Nat.toDigits 10 n).length - 1) : ℕ) * 10 ^ e := by
        rw [zpow_add₀ (by norm_num), zpow_natCast, Nat.cast_pow, Nat.cast_ofNat]
      _ ≤ n * 10 ^ e := by
        gcongr
        exact ten_pow_length_le (Nat.pos_of_ne_zero nonzero)
  unfold scaled
  simp only
  rw [if_neg (not_or_intro nonzero notSmall), if_neg notLarge]
  exact ofScientific_eq canonical bounded pos rounds

end Reading

end BalanceFit.Decimal
