import BalanceFit.Proofs.Decimal.Interval

/-!
# Rounding to a double

A mantissa that is too long for a double is shifted to the right. Of the bits that are lost on the
way two are kept: the first of them, and whether any behind it was one. They tell on which side of
the middle the number lies, so it can be rounded to the nearest mantissa. If that has become too
long, it is shifted once more.

## Main definitions

* `Represents` : what a mantissa with its two extra bits tells about a number

## Main statements

* `Represents.shiftRight` : shifts keep what is known about a number
* `roundWithAccuracy_eq` : the result of rounding is the double in whose interval the number lies
* `mul_eq`, `div_eq`, `round_eq` : products, quotients and whole numbers are rounded once
-/

namespace BalanceFit.Decimal

open Float.Model (Format UnpackedFloat totalExponent)
open Float.Model.UnpackedFloat

/-! ### Extended mantissas -/

/-- Where the half step begins that an extended mantissa names: its round bit stands for one half.
-/
def halfStart (em : ExtendedMantissa) : ℚ := em.mantissa + (em.roundBit.toNat : ℚ) / 2

/-- An extended mantissa tells in which half step a number lies, and by its sticky bit whether the
number is where that begins. -/
structure Represents (em : ExtendedMantissa) (x : ℚ) : Prop where
  start_le : halfStart em ≤ x
  lt_end : x < halfStart em + 1 / 2
  sticky_iff : em.stickyBit ↔ halfStart em < x

namespace Represents

variable {em : ExtendedMantissa} {x : ℚ}

theorem mantissa_le_halfStart : (em.mantissa : ℚ) ≤ halfStart em := by
  unfold halfStart
  linarith [Nat.cast_nonneg (α := ℚ) em.roundBit.toNat]

theorem mantissa_le (h : Represents em x) : (em.mantissa : ℚ) ≤ x :=
  mantissa_le_halfStart.trans h.start_le

theorem lt_mantissa_add_one (h : Represents em x) : x < em.mantissa + 1 := by
  have bit : (em.roundBit.toNat : ℚ) ≤ 1 := by exact_mod_cast em.roundBit.toNat_le
  have := h.lt_end
  unfold halfStart at this
  linarith

section Accuracy

variable {m : ℕ}

theorem exact (m : ℕ) : Represents (.ofMantissaAndAccuracy m .exact) m := by
  have start : halfStart (.ofMantissaAndAccuracy m .exact) = m := by
    simp [halfStart, ExtendedMantissa.ofMantissaAndAccuracy]
  refine ⟨start.le, ?_, ?_⟩ <;> rw [start]
  · linarith
  · exact iff_of_false Bool.false_ne_true (lt_irrefl _)

theorem of_lt_half (above : m < x) (below : x < m + 1 / 2) :
    Represents (.ofMantissaAndAccuracy m (.inexact .lt)) x := by
  have start : halfStart (.ofMantissaAndAccuracy m (.inexact .lt)) = m := by
    simp [halfStart, ExtendedMantissa.ofMantissaAndAccuracy]
  refine ⟨?_, ?_, ?_⟩ <;> rw [start]
  · exact above.le
  · exact below
  · exact iff_of_true rfl above

theorem of_eq_half (middle : x = m + 1 / 2) :
    Represents (.ofMantissaAndAccuracy m (.inexact .eq)) x := by
  have start : halfStart (.ofMantissaAndAccuracy m (.inexact .eq)) = m + 1 / 2 := by
    simp [halfStart, ExtendedMantissa.ofMantissaAndAccuracy]
  refine ⟨?_, ?_, ?_⟩ <;> rw [start]
  · exact middle.ge
  · linarith
  · exact iff_of_false Bool.false_ne_true middle.not_gt

theorem of_half_lt (above : m + 1 / 2 < x) (below : x < m + 1) :
    Represents (.ofMantissaAndAccuracy m (.inexact .gt)) x := by
  have start : halfStart (.ofMantissaAndAccuracy m (.inexact .gt)) = m + 1 / 2 := by
    simp [halfStart, ExtendedMantissa.ofMantissaAndAccuracy]
  refine ⟨?_, ?_, ?_⟩ <;> rw [start]
  · exact above.le
  · linarith
  · exact iff_of_true rfl above

/-- What the remainder of a division tells about the rest of a quotient. -/
theorem of_remainder {rest b : ℕ} (below : rest < b) :
    Represents (.ofMantissaAndAccuracy m (accuracyOfFraction rest b)) (m + rest / b) := by
  have unit : (0 : ℚ) < b := by exact_mod_cast (Nat.zero_le rest).trans_lt below
  have rest_lt : (rest : ℚ) / b < 1 := (div_lt_one unit).2 (by exact_mod_cast below)
  unfold accuracyOfFraction
  split_ifs with none
  · rw [none, Nat.cast_zero, zero_div, add_zero]
    exact .exact m
  · have rest_pos : (0 : ℚ) < rest / b := div_pos (by exact_mod_cast Nat.pos_of_ne_zero none) unit
    have half : (rest : ℚ) / b = 1 / 2 + (2 * rest - b) / (2 * b) := by field_simp; ring
    cases order : compare (2 * rest) b with
    | lt =>
      have : (2 * rest : ℚ) < b := by exact_mod_cast Nat.compare_eq_lt.1 order
      have : (2 * rest - b : ℚ) / (2 * b) < 0 := div_neg_of_neg_of_pos (by linarith) (by linarith)
      exact .of_lt_half (by linarith) (by linarith)
    | eq =>
      have : (2 * rest : ℚ) = b := by exact_mod_cast Nat.compare_eq_eq.1 order
      exact .of_eq_half (by rw [half, this, sub_self, zero_div, add_zero])
    | gt =>
      have : (b : ℚ) < 2 * rest := by exact_mod_cast Nat.compare_eq_gt.1 order
      have : 0 < (2 * rest - b : ℚ) / (2 * b) := div_pos (by linarith) (by linarith)
      exact .of_half_lt (by linarith) (by linarith)

end Accuracy

/-- The last bit of a halved mantissa becomes its round bit. -/
theorem halfStart_shiftRightOne : halfStart em.shiftRightOne = em.mantissa / 2 := by
  have bit : (em.mantissa % 2 != 0).toNat = em.mantissa % 2 := by
    rcases Nat.mod_two_eq_zero_or_one em.mantissa with h | h <;> rw [h] <;> rfl
  have parts : (em.mantissa : ℚ) = 2 * (em.mantissa / 2 : ℕ) + (em.mantissa % 2 : ℕ) := by
    exact_mod_cast (Nat.div_add_mod em.mantissa 2).symm
  rw [halfStart, ExtendedMantissa.shiftRightOne, bit]
  linarith

theorem shiftRightOne (h : Represents em x) : Represents em.shiftRightOne (x / 2) := by
  have low := h.mantissa_le
  have high := h.lt_mantissa_add_one
  refine ⟨?_, ?_, ?_⟩ <;> rw [halfStart_shiftRightOne]
  · linarith
  · linarith
  · -- Something stands behind the mantissa if it is more than a whole number.
    rw [div_lt_div_iff_of_pos_right two_pos, ExtendedMantissa.shiftRightOne, Bool.or_eq_true,
      h.sticky_iff]
    have start := h.start_le
    unfold halfStart at start ⊢
    cases bit : em.roundBit with
    | false => simp
    | true =>
      rw [bit, Bool.toNat_true, Nat.cast_one] at start
      exact iff_of_true (.inl rfl) (by linarith)

theorem shiftRight (h : Represents em x) (k : ℕ) : Represents (em >>> k) (x / 2 ^ k) := by
  change Represents (k.repeat ExtendedMantissa.shiftRightOne em) _
  induction k with
  | zero => simpa [Nat.repeat] using h
  | succ k ih =>
    -- Every shift keeps the invariant, for what the sticky bit has seen is not forgotten.
    rw [pow_succ, ← div_div]
    exact ih.shiftRightOne

/-- A mantissa is rounded to the nearest, and from the middle to the even one. -/
theorem rounded_cases (h : Represents em x) :
    (x < em.mantissa + 1 / 2 ∧ em.roundedMantissa = em.mantissa) ∨
    (x = em.mantissa + 1 / 2 ∧ em.roundedMantissa = em.mantissa + em.mantissa % 2) ∨
    (em.mantissa + 1 / 2 < x ∧ em.roundedMantissa = em.mantissa + 1) := by
  obtain ⟨m, round, sticky⟩ := em
  obtain ⟨start_le, lt_end, sticky_iff⟩ := h
  cases round with
  | false =>
    refine .inl ⟨by simpa [halfStart] using lt_end, ?_⟩
    cases sticky <;> rfl
  | true =>
    simp only [halfStart, Bool.toNat_true, Nat.cast_one] at start_le sticky_iff
    cases sticky with
    | false =>
      have le := not_lt.1 (sticky_iff.not.1 Bool.false_ne_true)
      exact .inr (.inl ⟨le.antisymm start_le, rfl⟩)
    | true => exact .inr (.inr ⟨sticky_iff.1 rfl, rfl⟩)

/-- A number rounds to the double that its rounded mantissa makes, unless that is a power of two to
which it was rounded up. -/
theorem roundsTo (h : Represents em x) {q : ℤ}
    (reached : em.roundedMantissa = 2 ^ 52 → q ≠ -1074 → 2 ^ 52 ≤ em.mantissa) :
    RoundsTo em.roundedMantissa q (x * 2 ^ q) := by
  have low := h.mantissa_le
  have high := h.lt_mantissa_add_one
  have kept : (lowEnd em.mantissa q : ℚ) ≤ 4 * em.mantissa := by exact_mod_cast lowEnd_le
  have raised (up : em.roundedMantissa = em.mantissa + 1) :
      (lowEnd (em.mantissa + 1) q : ℚ) = 4 * em.mantissa + 2 := by
    rw [up] at reached
    have evenly : em.mantissa + 1 = 2 ^ 52 → q = -1074 := fun power => by
      by_contra higher
      have := reached power higher
      omega
    exact_mod_cast lowEnd_add_one evenly
  rcases h.rounded_cases with ⟨below, rounded⟩ | ⟨middle, rounded⟩ | ⟨above, rounded⟩
  · rw [rounded]
    refine .of_quarters (by linarith) (by linarith) fun odd => ⟨?_, by linarith⟩
    have : (lowEnd em.mantissa q : ℚ) < 4 * em.mantissa := by
      exact_mod_cast lowEnd_lt (by omega)
    linarith
  · rcases Nat.mod_two_eq_zero_or_one em.mantissa with even | odd
    · rw [even, add_zero] at rounded
      rw [rounded]
      exact .of_quarters (by linarith) (by linarith) fun odd => by omega
    · rw [odd] at rounded
      rw [rounded]
      have := raised rounded
      refine .of_quarters (by linarith) (by push_cast; linarith) fun _ => by omega
  · rw [rounded]
    have := raised rounded
    refine .of_quarters (by linarith) (by push_cast; linarith) fun _ => ⟨?_, ?_⟩
    · linarith
    · push_cast
      linarith

end Represents

/-! ### Shifting to the exponent of a double -/

theorem mantissa_shiftRight (em : ExtendedMantissa) (k : ℕ) :
    (em >>> k).mantissa = em.mantissa / 2 ^ k := by
  change (k.repeat ExtendedMantissa.shiftRightOne em).mantissa = _
  induction k with
  | zero => simp [Nat.repeat]
  | succ k ih =>
    rw [pow_succ, ← Nat.div_div_eq_div_mul, ← ih]
    rfl

/-- The exponent to which a number is rounded. -/
theorem targetExponent_eq (m : ℕ) (e : ℤ) :
    Format.binary64.targetExponent (totalExponent m e) = max (m.log2 + e - 52) (-1074) := by
  have bits : (Format.binary64.mantissaBits : ℤ) = 53 := rfl
  have lowest : Format.binary64.minExponent = -1074 := rfl
  rw [Format.targetExponent, totalExponent, bits, lowest]
  congr 1
  ring

/-- A mantissa that fits stays as it is. -/
theorem shiftToTargetExponent_of_lt {n : ℕ} {t : ℤ} (fits : n < 2 ^ 53) (high : -1074 ≤ t) :
    shiftToTargetExponent Format.binary64 n t .exact =
      (.ofMantissaAndAccuracy n .exact, t) := by
  have log : n.log2 ≤ 52 := by
    rcases Nat.eq_zero_or_pos n with rfl | pos
    · decide
    · exact Nat.le_of_lt_succ ((Nat.log2_lt pos.ne').2 fits)
  have none : (Format.binary64.targetExponent (totalExponent n t) - t).toNat = 0 := by
    rw [targetExponent_eq]
    omega
  simp only [shiftToTargetExponent, shiftToExponent, none]
  exact Prod.ext rfl (add_zero t)

/-- A mantissa that was rounded up to 54 bits loses the last of them, a zero. -/
theorem shiftToTargetExponent_carry {t : ℤ} (high : -1074 ≤ t) :
    shiftToTargetExponent Format.binary64 (2 ^ 53) t .exact =
      (.ofMantissaAndAccuracy (2 ^ 52) .exact, t + 1) := by
  have one : (Format.binary64.targetExponent (totalExponent (2 ^ 53) t) - t).toNat = 1 := by
    rw [targetExponent_eq, Nat.log2_two_pow]
    omega
  simp only [shiftToTargetExponent, shiftToExponent, one]
  rfl

variable {m : ℕ} {q : ℤ} {r : ℚ}

/-- A number just below a power of two that was rounded up to it. -/
theorem Represents.roundsTo_carry {em : ExtendedMantissa} {x : ℚ} (h : Represents em x) {t : ℤ}
    (fits : em.mantissa < 2 ^ 53) (carry : em.roundedMantissa = 2 ^ 53) (high : -1074 ≤ t) :
    RoundsTo (2 ^ 52) (t + 1) (x * 2 ^ t) := by
  have last : em.mantissa = 2 ^ 53 - 1 ∧ (em.mantissa : ℚ) + 1 / 2 ≤ x := by
    rcases h.rounded_cases with ⟨-, rounded⟩ | ⟨middle, rounded⟩ | ⟨above, rounded⟩
    · omega
    · exact ⟨by omega, middle.ge⟩
    · exact ⟨by omega, above.le⟩
  have low := last.2
  have below := h.lt_mantissa_add_one
  rw [last.1] at low below
  norm_num at low below
  have start : lowEnd (2 ^ 52) (t + 1) = 2 ^ 54 - 1 := if_pos ⟨rfl, by omega⟩
  have value : x * 2 ^ t = x / 2 * 2 ^ (t + 1) := by
    rw [zpow_add_one₀ two_ne_zero]
    ring
  rw [value]
  refine .of_quarters ?_ ?_ fun odd => absurd odd (by decide)
  · rw [start]
    norm_num
    linarith
  · norm_num
    linarith

/-- Rounding shifts twice: before the mantissa is rounded, and in case that makes it too long. -/
theorem roundWithAccuracy_of_shift {n : ℕ} {e t : ℤ} {accuracy : Accuracy} {em : ExtendedMantissa}
    (first : shiftToTargetExponent Format.binary64 n e accuracy = (em, t))
    (second : shiftToTargetExponent Format.binary64 em.roundedMantissa t .exact =
      (.ofMantissaAndAccuracy m .exact, q)) (pos : 0 < m) (s : Sign) :
    roundWithAccuracy Format.binary64 s n e accuracy = .finite s m q pos := by
  simp only [roundWithAccuracy, first, second]
  exact dif_neg pos.ne'

/-- **Rounding to nearest.** A number whose mantissa is long enough to be rounded is rounded to the
double in whose interval it lies. -/
theorem roundWithAccuracy_eq (canonical : Canonical m q) (pos : 0 < m) (rounds : RoundsTo m q r)
    {n : ℕ} {e : ℤ} {accuracy : Accuracy} (wide : 2 ^ 52 ≤ n ∨ e ≤ -1074)
    (represents : Represents (.ofMantissaAndAccuracy n accuracy) (r / 2 ^ e)) (s : Sign) :
    roundWithAccuracy Format.binary64 s n e accuracy = .finite s m q pos := by
  have long : 2 ^ 52 ≤ n → 52 ≤ n.log2 := fun h => (Nat.le_log2 (by omega)).2 h
  obtain ⟨t, ht⟩ : ∃ t, t = max ((n.log2 : ℤ) + e - 52) (-1074) := ⟨_, rfl⟩
  obtain ⟨k, hk⟩ : ∃ k : ℕ, t = e + k := ⟨(t - e).toNat, by omega⟩
  -- The mantissa once the bits behind the exponent `t` are cut off, and what is known of these.
  obtain ⟨em, hem⟩ : ∃ em, em = ExtendedMantissa.ofMantissaAndAccuracy n accuracy >>> k := ⟨_, rfl⟩
  have shifted : shiftToTargetExponent Format.binary64 n e accuracy = (em, t) := by
    have amount : (Format.binary64.targetExponent (totalExponent n e) - e).toNat = k := by
      rw [targetExponent_eq]
      omega
    simp only [shiftToTargetExponent, shiftToExponent, amount, hem, hk]
  have mantissa : em.mantissa = n / 2 ^ k := by
    rw [hem, mantissa_shiftRight]
    rcases accuracy with _ | _ | _ | _ <;> rfl
  replace represents : Represents em (r / 2 ^ t) := by
    rw [hem, hk, zpow_add₀ two_ne_zero, zpow_natCast, ← div_div]
    exact represents.shiftRight k
  have value : r / 2 ^ t * 2 ^ t = r := div_mul_cancel₀ r (by positivity)
  have fits : em.mantissa < 2 ^ 53 := by
    rw [mantissa]
    refine Nat.div_lt_of_lt_mul ((Nat.lt_log2_self (n := n)).trans_le ?_)
    rw [← pow_add]
    exact Nat.pow_le_pow_right two_pos (by omega)
  have full : t ≠ -1074 → 2 ^ 52 ≤ em.mantissa := by
    intro higher
    have nonzero : n ≠ 0 := by
      rintro rfl
      rw [Nat.log2_zero] at ht
      omega
    rw [mantissa, Nat.le_div_iff_mul_le (Nat.two_pow_pos k), ← pow_add]
    exact (Nat.pow_le_pow_right two_pos (by omega)).trans (Nat.log2_self_le nonzero)
  -- The double that rounding makes has the number in its interval, so it is the given one.
  have step : em.mantissa ≤ em.roundedMantissa ∧ em.roundedMantissa ≤ em.mantissa + 1 := by
    rcases represents.rounded_cases with ⟨-, h⟩ | ⟨-, h⟩ | ⟨-, h⟩ <;> omega
  rcases lt_or_ge em.roundedMantissa (2 ^ 53) with small | carry
  · have near := represents.roundsTo fun _ higher => full higher
    rw [value] at near
    have own : Canonical em.roundedMantissa t :=
      ⟨small, by omega, or_iff_not_imp_right.2 fun higher => (full higher).trans step.1⟩
    obtain ⟨rfl, rfl⟩ := RoundsTo.unique canonical own rounds near
    exact roundWithAccuracy_of_shift shifted (shiftToTargetExponent_of_lt small own.lowest_le) pos s
  · have rounded : em.roundedMantissa = 2 ^ 53 := by omega
    have high : -1074 ≤ t := by omega
    have near := represents.roundsTo_carry fits rounded high
    rw [value] at near
    have own : Canonical (2 ^ 52) (t + 1) := ⟨by decide, by omega, .inl le_rfl⟩
    obtain ⟨rfl, rfl⟩ := RoundsTo.unique canonical own rounds near
    refine roundWithAccuracy_of_shift shifted ?_ pos s
    rw [rounded]
    exact shiftToTargetExponent_carry high

/-! ### Products and quotients -/

/-- A product is rounded to nearest. -/
theorem mul_eq (canonical : Canonical m q) (pos : 0 < m) {m₁ m₂ : ℕ} {e₁ e₂ : ℤ}
    (wide : 2 ^ 52 ≤ m₁) (pos₁ : 0 < m₁) (pos₂ : 0 < m₂)
    (rounds : RoundsTo m q ((m₁ * 2 ^ e₁) * (m₂ * 2 ^ e₂))) :
    mul Format.binary64 (.finite .positive m₁ e₁ pos₁) (.finite .positive m₂ e₂ pos₂) =
      .finite .positive m q pos := by
  refine roundWithAccuracy_eq canonical pos rounds (.inl (wide.trans ?_)) ?_ .positive
  · exact Nat.le_mul_of_pos_right m₁ pos₂
  · have value : ((m₁ * 2 ^ e₁) * (m₂ * 2 ^ e₂) : ℚ) / 2 ^ (e₁ + e₂) = (m₁ * m₂ : ℕ) := by
      rw [zpow_add₀ two_ne_zero]
      push_cast
      field_simp
    rw [value]
    exact .exact _

/-- The whole part of a quotient, with what the remainder tells about the rest. -/
theorem represents_quotient (a : ℕ) {b : ℕ} (pos : 0 < b) :
    Represents (.ofMantissaAndAccuracy (a / b) (accuracyOfFraction (a % b) b)) (a / b) := by
  have unit : (b : ℚ) ≠ 0 := by exact_mod_cast pos.ne'
  have parts : (a : ℚ) = b * (a / b : ℕ) + (a % b : ℕ) := by
    exact_mod_cast (Nat.div_add_mod a b).symm
  have value : (a / b : ℚ) = (a / b : ℕ) + (a % b : ℕ) / b := by
    rw [parts, add_div, mul_div_cancel_left₀ _ unit]
  rw [value]
  exact .of_remainder (Nat.mod_lt a pos)

/-- A quotient is rounded to nearest. -/
theorem div_eq (canonical : Canonical m q) (pos : 0 < m) {m₁ m₂ : ℕ} {e₁ e₂ : ℤ}
    (pos₁ : 0 < m₁) (pos₂ : 0 < m₂) (rounds : RoundsTo m q ((m₁ * 2 ^ e₁) / (m₂ * 2 ^ e₂))) :
    div Format.binary64 (.finite .positive m₁ e₁ pos₁) (.finite .positive m₂ e₂ pos₂) =
      .finite .positive m q pos := by
  obtain ⟨t, ht⟩ : ∃ t, t = min (e₁ - e₂) (Format.binary64.targetExponent
      (totalExponent m₁ e₁ - totalExponent m₂ e₂)) := ⟨_, rfl⟩
  obtain ⟨k, hk⟩ : ∃ k : ℕ, e₁ - e₂ - t = k := ⟨(e₁ - e₂ - t).toNat, by omega⟩
  have core : divCore Format.binary64 m₁ e₁ m₂ e₂ =
      (m₁ * 2 ^ k / m₂, t, accuracyOfFraction (m₁ * 2 ^ k % m₂) m₂) := by
    simp only [divCore, ← ht, hk, Int.toNat_natCast, Nat.shiftLeft_eq]
  -- So many zeros are appended to the dividend that the quotient is long enough to be rounded.
  have wide : 2 ^ 52 ≤ m₁ * 2 ^ k / m₂ ∨ t ≤ -1074 := by
    refine or_iff_not_imp_right.2 fun high => ?_
    have bits : (Format.binary64.mantissaBits : ℤ) = 53 := rfl
    have lowest : Format.binary64.minExponent = -1074 := rfl
    rw [Format.targetExponent, totalExponent, totalExponent, bits, lowest] at ht
    rw [Nat.le_div_iff_mul_le pos₂]
    calc 2 ^ 52 * m₂ ≤ 2 ^ 52 * 2 ^ (m₂.log2 + 1) := Nat.mul_le_mul_left _ Nat.lt_log2_self.le
      _ = 2 ^ (52 + (m₂.log2 + 1)) := (pow_add _ _ _).symm
      _ ≤ 2 ^ (m₁.log2 + k) := Nat.pow_le_pow_right two_pos (by omega)
      _ = 2 ^ m₁.log2 * 2 ^ k := pow_add _ _ _
      _ ≤ m₁ * 2 ^ k := Nat.mul_le_mul_right _ (Nat.log2_self_le pos₁.ne')
  have value : (m₁ * 2 ^ e₁) / (m₂ * 2 ^ e₂) / 2 ^ t = ((m₁ * 2 ^ k : ℕ) : ℚ) / m₂ := by
    obtain rfl : e₁ = k + t + e₂ := by omega
    rw [zpow_add₀ two_ne_zero, zpow_add₀ two_ne_zero, zpow_natCast]
    push_cast
    field_simp
  have represents := represents_quotient (m₁ * 2 ^ k) pos₂
  rw [← value] at represents
  simp only [div, core]
  exact roundWithAccuracy_eq canonical pos rounds wide represents .positive

/-- A natural number, in units of a power of two, is rounded to nearest. -/
theorem round_eq (canonical : Canonical m q) (pos : 0 < m) {n : ℕ} {e : ℤ} (nonzero : n ≠ 0)
    (rounds : RoundsTo m q (n * 2 ^ e)) (s : Sign) :
    UnpackedFloat.round Format.binary64 s n e = .finite s m q pos := by
  obtain ⟨k, hk⟩ : ∃ k : ℕ, (e - Format.binary64.targetExponent (totalExponent n e)).toNat = k :=
    ⟨_, rfl⟩
  have value : (n * 2 ^ e : ℚ) / 2 ^ (e - k) = (n * 2 ^ k : ℕ) := by
    rw [zpow_sub₀ two_ne_zero, zpow_natCast]
    push_cast
    field_simp
  have wide : 2 ^ 52 ≤ n * 2 ^ k ∨ e - k ≤ -1074 := by
    rw [targetExponent_eq] at hk
    refine or_iff_not_imp_right.2 fun high => ?_
    calc 2 ^ 52 ≤ 2 ^ (n.log2 + k) := Nat.pow_le_pow_right two_pos (by omega)
      _ = 2 ^ n.log2 * 2 ^ k := pow_add _ _ _
      _ ≤ n * 2 ^ k := Nat.mul_le_mul_right _ (Nat.log2_self_le nonzero)
  simp only [UnpackedFloat.round, decreaseExponent, hk, Nat.shiftLeft_eq]
  refine roundWithAccuracy_eq canonical pos rounds wide ?_ s
  rw [value]
  exact .exact _

end BalanceFit.Decimal
