import BalanceFit.Proofs.Decimal.Binary64

/-!
# The numbers that round to a double

Around the value of a double lies an interval of the numbers that round to it. It reaches half of
the last binary place up, and as far down; below a power of two the doubles are closer, and it
reaches half as far. The ends round to the double whose mantissa is even. No number rounds to two
doubles.

## Main definitions

* `lowEnd` : where the interval begins, in quarters of the last binary place
* `RoundsTo` : the numbers in the interval

## Main statements

* `RoundsTo.unique` : a number rounds to one double only
-/

namespace BalanceFit.Decimal

/-- Where the interval of the numbers that round to `m * 2 ^ q` begins, in quarters of the last
binary place. -/
def lowEnd (m : ℕ) (q : ℤ) : ℕ :=
  if m = 2 ^ 52 ∧ q ≠ -1074 then 4 * m - 1 else 4 * m - 2

/-- A number rounds to `m * 2 ^ q`. -/
structure RoundsTo (m : ℕ) (q : ℤ) (r : ℚ) : Prop where
  low_le : (lowEnd m q : ℚ) * 2 ^ (q - 2) ≤ r
  le_high : r ≤ (4 * m + 2 : ℕ) * 2 ^ (q - 2)
  open_of_odd : m % 2 = 1 → (lowEnd m q : ℚ) * 2 ^ (q - 2) ≠ r ∧ r ≠ (4 * m + 2 : ℕ) * 2 ^ (q - 2)

variable {m m' : ℕ} {q q' : ℤ} {r : ℚ}

theorem le_lowEnd : 4 * m - 2 ≤ lowEnd m q := by
  unfold lowEnd
  split_ifs <;> omega

theorem lowEnd_le : lowEnd m q ≤ 4 * m := by
  unfold lowEnd
  split_ifs <;> omega

theorem lowEnd_lt (pos : 0 < m) : lowEnd m q < 4 * m := by
  unfold lowEnd
  split_ifs <;> omega

/-- Where the doubles are evenly spaced, an interval begins halfway from the next lower one. -/
theorem lowEnd_add_one (even : m + 1 = 2 ^ 52 → q = -1074) : lowEnd (m + 1) q = 4 * m + 2 := by
  unfold lowEnd
  split_ifs <;> omega

theorem Canonical.le_lowEnd (canonical : Canonical m q) (higher : q ≠ -1074) :
    2 ^ 54 - 1 ≤ lowEnd m q := by
  have := canonical.long.resolve_right higher
  unfold lowEnd
  split_ifs <;> omega

namespace RoundsTo

/-- The interval in terms of the last binary place. -/
theorem of_quarters {x : ℚ} (low : (lowEnd m q : ℚ) ≤ 4 * x) (high : 4 * x ≤ 4 * m + 2)
    (odd : m % 2 = 1 → (lowEnd m q : ℚ) ≠ 4 * x ∧ 4 * x ≠ 4 * m + 2) :
    RoundsTo m q (x * 2 ^ q) := by
  have unit : (0 : ℚ) < 2 ^ (q - 2) := by positivity
  have value : x * 2 ^ q = 4 * x * 2 ^ (q - 2) := by
    rw [zpow_sub₀ two_ne_zero]
    ring
  rw [value]
  refine ⟨by gcongr, by push_cast; gcongr, fun h => ⟨fun equal => ?_, fun equal => ?_⟩⟩
  · exact (odd h).1 (mul_right_cancel₀ unit.ne' equal)
  · exact (odd h).2 (by exact_mod_cast mul_right_cancel₀ unit.ne' equal)

/-- The value of a double rounds to it. -/
theorem self (pos : 0 < m) : RoundsTo m q (m * 2 ^ q) := by
  have low : (lowEnd m q : ℚ) < 4 * m := by exact_mod_cast lowEnd_lt pos
  have high : (4 * m : ℚ) < 4 * m + 2 := lt_add_of_pos_right _ two_pos
  exact of_quarters low.le high.le fun _ => ⟨low.ne, high.ne⟩

theorem pos_of_pos (pos : 0 < m) (rounds : RoundsTo m q r) : 0 < r := by
  have := le_lowEnd (m := m) (q := q)
  have low : 0 < lowEnd m q := by omega
  have : (0 : ℚ) < lowEnd m q * 2 ^ (q - 2) := by positivity
  exact this.trans_le rounds.low_le

/-- What rounds to a finite double is less than the power of two behind the largest one. -/
theorem lt_two_pow (canonical : Canonical m q) (bounded : q ≤ 971) (rounds : RoundsTo m q r) :
    r < 2 ^ (1024 : ℤ) := by
  have := canonical.lt
  calc r ≤ (4 * m + 2 : ℕ) * 2 ^ (q - 2) := rounds.le_high
    _ < (2 ^ 55 : ℕ) * 2 ^ (q - 2) :=
      mul_lt_mul_of_pos_right (by exact_mod_cast (by omega)) (by positivity)
    _ = 2 ^ (55 + (q - 2)) := by rw [zpow_add₀ two_ne_zero, Nat.cast_pow, ← zpow_natCast]; rfl
    _ ≤ 2 ^ (1024 : ℤ) := zpow_le_zpow_right₀ one_le_two (by omega)

/-- What rounds to a positive double is at least half the smallest one. -/
theorem two_pow_le (canonical : Canonical m q) (pos : 0 < m) (rounds : RoundsTo m q r) :
    2 ^ (-1075 : ℤ) ≤ r := by
  have := canonical.lowest_le
  have := le_lowEnd (m := m) (q := q)
  calc (2 : ℚ) ^ (-1075 : ℤ) ≤ 2 ^ (1 + (q - 2)) := zpow_le_zpow_right₀ one_le_two (by omega)
    _ = (2 : ℕ) * 2 ^ (q - 2) := zpow_one_add₀ two_ne_zero _
    _ ≤ lowEnd m q * 2 ^ (q - 2) := by
      gcongr
      omega
    _ ≤ r := rounds.low_le

/-- The intervals of doubles with the same exponent do not meet. -/
theorem mantissa_le (rounds : RoundsTo m q r) (rounds' : RoundsTo m' q r) : m' ≤ m := by
  by_contra! lt
  have unit : (0 : ℚ) < 2 ^ (q - 2) := by positivity
  have low := rounds'.low_le
  have high := rounds.le_high
  have ends : lowEnd m' q ≤ 4 * m + 2 := by
    exact_mod_cast le_of_mul_le_mul_right (low.trans high) unit
  have := le_lowEnd (m := m') (q := q)
  -- The intervals are next to each other; their common end belongs to only one of them.
  obtain ⟨rfl, touch⟩ : m' = m + 1 ∧ lowEnd m' q = 4 * m + 2 := by omega
  rw [touch] at low
  have common := high.antisymm low
  rcases Nat.mod_two_eq_zero_or_one m with even | odd
  · exact (rounds'.open_of_odd (by omega)).1 (by rw [touch, common])
  · exact (rounds.open_of_odd odd).2 common

/-- The intervals of doubles with different exponents do not meet. -/
theorem exponent_le (canonical : Canonical m q) (canonical' : Canonical m' q')
    (rounds : RoundsTo m q r) (rounds' : RoundsTo m' q' r) : q' ≤ q := by
  by_contra! lt
  have unit : (0 : ℚ) < 2 ^ (q - 2) := by positivity
  have low : ((lowEnd m' q' * 2 : ℕ) : ℚ) * 2 ^ (q - 2) ≤ r := by
    refine le_trans ?_ rounds'.low_le
    have coarser : (2 : ℚ) * 2 ^ (q - 2) ≤ 2 ^ (q' - 2) := by
      rw [← zpow_one_add₀ two_ne_zero]
      exact zpow_le_zpow_right₀ one_le_two (by omega)
    rw [Nat.cast_mul, mul_assoc]
    gcongr
    exact coarser
  have high := rounds.le_high
  have ends : lowEnd m' q' * 2 ≤ 4 * m + 2 := by
    exact_mod_cast le_of_mul_le_mul_right (low.trans high) unit
  have := canonical.lt
  have := canonical.lowest_le
  have := canonical'.le_lowEnd (by omega)
  -- The lower one is the last below a power of two, so its mantissa is odd.
  have touch : lowEnd m' q' * 2 = 4 * m + 2 := by omega
  rw [touch] at low
  exact (rounds.open_of_odd (by omega)).2 (high.antisymm low)

/-- **A number rounds to one double only.** -/
theorem unique (canonical : Canonical m q) (canonical' : Canonical m' q')
    (rounds : RoundsTo m q r) (rounds' : RoundsTo m' q' r) : m = m' ∧ q = q' := by
  obtain rfl : q = q' := (exponent_le canonical' canonical rounds' rounds).antisymm
    (exponent_le canonical canonical' rounds rounds')
  exact ⟨(rounds'.mantissa_le rounds).antisymm (rounds.mantissa_le rounds'), rfl⟩

end RoundsTo

end BalanceFit.Decimal
