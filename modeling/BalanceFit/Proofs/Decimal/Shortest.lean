import BalanceFit.Proofs.Decimal.Digits
import BalanceFit.Proofs.Decimal.Interval

/-!
# The chosen digits read back

The search goes through decimal grids that become finer and finer, and takes a point only from the
interval of the numbers that round to the double. By the grid of seventeen digits it has found one,
for the steps of that grid are shorter than the interval.

## Main definitions

* `Fraction.value` : the number that a fraction stands for
* `Shortest.inside` : whether a grid point lies in an interval

## Main statements

* `Fraction.exponent_spec` : the exponent of a fraction is that of its leading digit
* `Shortest.roundsTo_search` : the search stops at a point of the interval
* `Shortest.roundsTo_digits` : the chosen digits of a double round to it
-/

namespace BalanceFit.Decimal

/-! ### Fractions -/

/-- A power with an integer exponent, written as a quotient. -/
theorem pow_toNat_div_pow_toNat (b : ℚ) (z : ℤ) :
    b ^ z.toNat / b ^ (-z).toNat = b ^ z := by
  obtain ⟨k, rfl | rfl⟩ := Int.eq_nat_or_neg z
  · rw [Int.toNat_natCast, Int.toNat_neg_natCast, pow_zero, div_one, zpow_natCast]
  · rw [neg_neg, Int.toNat_natCast, Int.toNat_neg_natCast, pow_zero, zpow_neg, zpow_natCast,
      one_div]

namespace Fraction

/-- The number that a fraction stands for. -/
def value (x : Fraction) : ℚ := x.num / x.den

theorem value_ofBinary (m : ℕ) (q : ℤ) : (ofBinary m q).value = m * 2 ^ q := by
  simp only [value, ofBinary, Nat.pow_eq, Nat.cast_mul, Nat.cast_pow, Nat.cast_ofNat]
  rw [mul_div_assoc, pow_toNat_div_pow_toNat]

theorem value_shift (x : Fraction) (p : ℤ) : (x.shift p).value = x.value / 10 ^ p := by
  simp only [value, shift, Nat.pow_eq, Nat.cast_mul, Nat.cast_pow, Nat.cast_ofNat]
  rw [← pow_toNat_div_pow_toNat 10 p]
  field_simp

/-- The lengths of numerator and denominator leave two places for the leading digit. -/
theorem bounds_of_length {x : Fraction} (num : 0 < x.num) (den : 0 < x.den) {guess : ℤ}
    (lengths : guess = (Nat.toDigits 10 x.num).length - (Nat.toDigits 10 x.den).length) :
    10 ^ (guess - 1) ≤ x.value ∧ x.value < 10 ^ (guess + 1) := by
  have digits (n : ℕ) : 0 < (Nat.toDigits 10 n).length := List.length_pos_iff.2 Nat.toDigits_ne_nil
  have hnum := digits x.num
  have hden := digits x.den
  have low {n : ℕ} (pos : 0 < n) : (10 : ℚ) ^ ((Nat.toDigits 10 n).length - 1 : ℤ) ≤ n := by
    rw [← Nat.cast_pred (digits n), zpow_natCast]
    exact_mod_cast ten_pow_length_le pos
  have high (n : ℕ) : (n : ℚ) < 10 ^ ((Nat.toDigits 10 n).length : ℤ) := by
    rw [zpow_natCast]
    exact_mod_cast lt_ten_pow_length n
  have unit : (0 : ℚ) < x.den := by exact_mod_cast den
  constructor
  · rw [value, le_div_iff₀ unit]
    calc (10 : ℚ) ^ (guess - 1) * x.den
        ≤ 10 ^ (guess - 1) * 10 ^ ((Nat.toDigits 10 x.den).length : ℤ) := by
          gcongr
          exact (high _).le
      _ = 10 ^ ((Nat.toDigits 10 x.num).length - 1 : ℤ) := by
        rw [← zpow_add₀ (by norm_num), lengths]
        congr 1
        ring
      _ ≤ x.num := low num
  · rw [value, div_lt_iff₀ unit]
    calc (x.num : ℚ) < 10 ^ ((Nat.toDigits 10 x.num).length : ℤ) := high _
      _ = 10 ^ (guess + 1) * 10 ^ ((Nat.toDigits 10 x.den).length - 1 : ℤ) := by
        rw [← zpow_add₀ (by norm_num), lengths]
        congr 1
        ring
      _ ≤ 10 ^ (guess + 1) * x.den := by
        gcongr
        exact low den

/-- The exponent of a positive number is that of its leading digit. -/
theorem exponent_spec {x : Fraction} (num : 0 < x.num) (den : 0 < x.den) :
    10 ^ x.exponent ≤ x.value ∧ x.value < 10 ^ (x.exponent + 1) := by
  obtain ⟨guess, lengths⟩ : ∃ guess : ℤ,
    guess = (Nat.toDigits 10 x.num).length - (Nat.toDigits 10 x.den).length := ⟨_, rfl⟩
  obtain ⟨low, high⟩ := bounds_of_length num den lengths
  have reached : (x.shift guess).den ≤ (x.shift guess).num ↔ (10 : ℚ) ^ guess ≤ x.value := by
    have unit : (0 : ℚ) < (x.shift guess).den := by
      have : 0 < (x.shift guess).den := Nat.mul_pos den (Nat.pow_pos (by decide))
      exact_mod_cast this
    rw [← one_le_div (zpow_pos (by norm_num : (0 : ℚ) < 10) guess), ← value_shift, value,
      one_le_div unit]
    exact_mod_cast Iff.rfl
  unfold exponent
  simp only [← lengths, reached]
  split_ifs with h
  · exact ⟨h, high⟩
  · exact ⟨low, by rw [sub_add_cancel]; exact not_le.1 h⟩

end Fraction

/-! ### The search on a decimal grid -/

namespace Shortest

variable {value low high num den t : ℕ} {closed : Bool}

/-- Whether a grid point lies in an interval. -/
def inside (low high : ℕ) (closed : Bool) (num den t : ℕ) : Bool :=
  if closed then low * num ≤ t * den && t * den ≤ high * num
  else low * num < t * den && t * den < high * num

theorem inside_of_lt (below : low * num < t * den) (above : t * den < high * num) :
    inside low high closed num den t := by
  cases closed with
  | true => simp [inside, below.le, above.le]
  | false => simp [inside, below, above]

/-- A point is found unless both neighbours of the value are outside of the interval, and one that
is found lies in it. -/
theorem neighbour?_cases (value low high : ℕ) (closed : Bool) (num den : ℕ) :
    (neighbour? value low high closed num den = none ∧
      inside low high closed num den (value * num / den) = false ∧
      inside low high closed num den (value * num / den + 1) = false) ∨
    ∃ t, neighbour? value low high closed num den = some t ∧ inside low high closed num den t := by
  unfold neighbour?
  generalize value * num / den = below
  simp only
  split
  · rename_i hbelow habove
    right
    split_ifs
    · exact ⟨_, rfl, hbelow⟩
    · exact ⟨_, rfl, habove⟩
    · refine ⟨_, rfl, ?_⟩
      rcases Nat.mod_two_eq_zero_or_one below with even | odd
      · rwa [even]
      · rwa [odd]
  · rename_i hbelow habove
    exact .inr ⟨_, rfl, hbelow⟩
  · rename_i hbelow habove
    exact .inr ⟨_, rfl, habove⟩
  · rename_i hbelow habove
    exact .inl ⟨rfl, hbelow, habove⟩

/-- A point is found on a grid whose steps are shorter than the interval. -/
theorem exists_neighbour? (num_pos : 0 < num) (den_pos : 0 < den) (low_lt : low < value)
    (lt_high : value < high) (fine : den + low * num < high * num) (closed : Bool) :
    ∃ t, neighbour? value low high closed num den = some t := by
  rcases neighbour?_cases value low high closed num den with ⟨-, below, above⟩ | ⟨t, found, -⟩
  · -- Two neighbours outside of the interval would leave no room for it between them.
    exfalso
    have hlow := Nat.mul_lt_mul_of_pos_right low_lt num_pos
    have hhigh := Nat.mul_lt_mul_of_pos_right lt_high num_pos
    have floor := Nat.div_mul_le_self (value * num) den
    have ceiling := Nat.lt_div_mul_add (a := value * num) den_pos
    have step : (value * num / den + 1) * den = value * num / den * den + den := Nat.succ_mul _ _
    by_cases h : low * num < value * num / den * den
    · exact Bool.false_ne_true (below.symm.trans (inside_of_lt h (by omega)))
    · exact Bool.false_ne_true (above.symm.trans (inside_of_lt (by omega) (by omega)))
  · exact ⟨t, found⟩

/-- A quarter of the last binary place in steps of a decimal grid is a quotient with this numerator,
-/
def gridNum (q place : ℤ) : ℕ := 2 ^ (q - 2).toNat * 10 ^ (-place).toNat

/-- and this denominator. -/
def gridDen (q place : ℤ) : ℕ := 2 ^ (2 - q).toNat * 10 ^ place.toNat

theorem gridNum_pos (q place : ℤ) : 0 < gridNum q place :=
  Nat.mul_pos (Nat.pow_pos (by decide)) (Nat.pow_pos (by decide))

theorem gridDen_pos (q place : ℤ) : 0 < gridDen q place :=
  Nat.mul_pos (Nat.pow_pos (by decide)) (Nat.pow_pos (by decide))

theorem gridNum_div_gridDen (q place : ℤ) :
    (gridNum q place : ℚ) / gridDen q place = 2 ^ (q - 2) / 10 ^ place := by
  rw [← pow_toNat_div_pow_toNat 2 (q - 2), ← pow_toNat_div_pow_toNat 10 place, neg_sub, gridNum,
    gridDen]
  push_cast
  field_simp

variable {m : ℕ} {q place top : ℤ}

/-- What it means for a grid point to lie in the interval of a double. -/
theorem ends_of_inside {odd : Prop} [Decidable odd]
    (hit : inside low high (decide ¬ odd) num den t) :
    low * num ≤ t * den ∧ t * den ≤ high * num ∧
      (odd → low * num ≠ t * den ∧ t * den ≠ high * num) := by
  unfold inside at hit
  split_ifs at hit with closed
  · simp only [Bool.and_eq_true, decide_eq_true_eq] at hit closed
    exact ⟨hit.1, hit.2, fun h => absurd h closed⟩
  · simp only [Bool.and_eq_true, decide_eq_true_eq] at hit
    exact ⟨hit.1.le, hit.2.le, fun _ => ⟨hit.1.ne, hit.2.ne⟩⟩

/-- A point of a decimal grid in the interval of a double rounds to it. -/
theorem roundsTo_of_inside (hit : inside (lowEnd m q) (4 * m + 2) (m % 2 = 0) (gridNum q place)
    (gridDen q place) t) : RoundsTo m q (t * 10 ^ place) := by
  have den : (0 : ℚ) < gridDen q place := by exact_mod_cast gridDen_pos q place
  have step : (0 : ℚ) < 10 ^ place / gridDen q place := by positivity
  have quarters (a : ℕ) : (a : ℚ) * 2 ^ (q - 2) =
      (a * gridNum q place : ℕ) * (10 ^ place / gridDen q place) := by
    have ratio := gridNum_div_gridDen q place
    rw [div_eq_div_iff den.ne' (by positivity)] at ratio
    rw [Nat.cast_mul, mul_assoc, mul_div_assoc', ratio, mul_div_cancel_right₀ _ den.ne']
  have point : (t : ℚ) * 10 ^ place =
      (t * gridDen q place : ℕ) * (10 ^ place / gridDen q place) := by
    rw [Nat.cast_mul, mul_assoc, mul_div_cancel₀ _ den.ne']
  have even : (m % 2 = 0) = ¬ m % 2 = 1 := propext Nat.mod_two_ne_one.symm
  simp only [even] at hit
  obtain ⟨low, high, odd⟩ := ends_of_inside hit
  rw [point]
  refine ⟨?_, ?_, fun h => ⟨fun equal => (odd h).1 ?_, fun equal => (odd h).2 ?_⟩⟩
  · rw [quarters]
    exact mul_le_mul_of_nonneg_right (by exact_mod_cast low) step.le
  · rw [quarters]
    exact mul_le_mul_of_nonneg_right (by exact_mod_cast high) step.le
  · rw [quarters] at equal
    exact_mod_cast mul_right_cancel₀ step.ne' equal
  · rw [quarters] at equal
    exact_mod_cast mul_right_cancel₀ step.ne' equal

/-- What is found on the grid of a number of digits. -/
def found? (m : ℕ) (q top : ℤ) (count : ℕ) : Option ℕ :=
  neighbour? (4 * m) (lowEnd m q) (4 * m + 2) (m % 2 = 0)
    (gridNum q (top - (count - 1 : ℕ))) (gridDen q (top - (count - 1 : ℕ)))

theorem search_succ (fuel count : ℕ) :
    search (4 * m) (lowEnd m q) (4 * m + 2) (m % 2 = 0) q top (fuel + 1) count =
      match found? m q top count with
      | some t => (t, top - (count - 1 : ℕ))
      | none => search (4 * m) (lowEnd m q) (4 * m + 2) (m % 2 = 0) q top fuel (count + 1) := rfl

/-- The search stops at a point of the interval, if the grids left to it have one. -/
theorem roundsTo_search {fuel count k : ℕ} (from_le : count ≤ k) (lt : k < count + fuel)
    (some : (found? m q top k).isSome) :
    let point := search (4 * m) (lowEnd m q) (4 * m + 2) (m % 2 = 0) q top fuel count
    RoundsTo m q (point.1 * 10 ^ point.2) := by
  -- The grid with a point is among those left until the search stops, at it or before.
  induction fuel generalizing count with
  | zero => omega
  | succ fuel ih =>
    rw [search_succ]
    rcases neighbour?_cases (4 * m) (lowEnd m q) (4 * m + 2) (m % 2 = 0)
      (gridNum q (top - (count - 1 : ℕ))) (gridDen q (top - (count - 1 : ℕ))) with
      ⟨none, -⟩ | ⟨t, found, hit⟩
    · change found? m q top count = _ at none
      rw [none]
      refine ih (Nat.lt_of_le_of_ne from_le ?_) (by omega)
      rintro rfl
      rw [none] at some
      exact Bool.false_ne_true some
    · change found? m q top count = _ at found
      rw [found]
      exact roundsTo_of_inside hit

/-- On the grid of seventeen digits the value of a double is at least `10 ^ 16`. -/
theorem gridDen_le (leading : 10 ^ top ≤ (m : ℚ) * 2 ^ q) :
    10 ^ 16 * gridDen q (top - (17 - 1 : ℕ)) ≤ 4 * m * gridNum q (top - (17 - 1 : ℕ)) := by
  have den : (0 : ℚ) < gridDen q (top - (17 - 1 : ℕ)) := by exact_mod_cast gridDen_pos _ _
  have value : 4 * m * (gridNum q (top - (17 - 1 : ℕ)) / gridDen q (top - (17 - 1 : ℕ)) : ℚ) =
      10 ^ 16 * (m * 2 ^ q / 10 ^ top) := by
    rw [gridNum_div_gridDen, zpow_sub₀ two_ne_zero, zpow_sub₀ (by norm_num), zpow_natCast]
    field_simp
    norm_num
    ring
  have scaled : (10 : ℚ) ^ 16 ≤ 10 ^ 16 * (m * 2 ^ q / 10 ^ top) :=
    le_mul_of_one_le_right (by positivity) ((one_le_div (by positivity)).2 leading)
  rw [← value, mul_div_assoc', le_div_iff₀ den] at scaled
  exact_mod_cast scaled

/-- Seventeen digits always suffice: the interval of a double is wider than the steps of their
grid. -/
theorem isSome_found? (canonical : Canonical m q) (pos : 0 < m)
    (leading : 10 ^ top ≤ (m : ℚ) * 2 ^ q) : (found? m q top 17).isSome := by
  rw [Option.isSome_iff_exists]
  have num := gridNum_pos q (top - (17 - 1 : ℕ))
  refine exists_neighbour? num (gridDen_pos _ _) (lowEnd_lt pos) (by omega) ?_ _
  have scaled := gridDen_le leading
  have short := Nat.mul_le_mul_right (gridNum q (top - (17 - 1 : ℕ)))
    (Nat.mul_le_mul_left 4 canonical.lt.le)
  obtain ⟨width, ends, wide⟩ : ∃ width, lowEnd m q + width = 4 * m + 2 ∧
      (width = 4 ∨ width = 3 ∧ m = 2 ^ 52) := by
    unfold lowEnd
    split_ifs with power
    · exact ⟨3, by omega, .inr ⟨rfl, power.1⟩⟩
    · exact ⟨4, by omega, .inl rfl⟩
  rw [← ends, add_mul, add_comm]
  refine Nat.add_lt_add_left ?_ _
  rcases wide with rfl | ⟨rfl, rfl⟩ <;> omega

/-- **The chosen digits read back.** -/
theorem roundsTo_digits (canonical : Canonical m q) (pos : 0 < m) :
    RoundsTo m q ((digits m q).1 * 10 ^ (digits m q).2) := by
  refine roundsTo_search (k := 17) (by decide) (by decide) (isSome_found? canonical pos ?_)
  rw [← Fraction.value_ofBinary]
  refine (Fraction.exponent_spec ?_ ?_).1
  · exact Nat.mul_pos pos (Nat.pow_pos (by decide))
  · exact Nat.pow_pos (by decide)

end Shortest

end BalanceFit.Decimal
