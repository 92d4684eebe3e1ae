import Mathlib.Tactic.FieldSimp
import BalanceFit.Proofs.Decimal.Digits

/-!
# Reading what is laid out

A number in a layout has digits, perhaps a point among them, and perhaps an exponent. However the
layout sets the number out, its reader finds all digits and the place of the last one.

## Main definitions

* `Numeral` : the texts that layouts write, with what they stand for

## Main statements

* `Numeral.magnitude?_eq` : they are read for what they stand for
* `Layout.numeral_text` : in any layout, digits stand for the number that they were chosen for
-/

namespace BalanceFit.Decimal

open Reading (value value_append value_zero value_zeros Ends)

variable {ds cs whole fraction : List Char} {n width : ℕ} {e first : ℤ}

/-! ### Exponents -/

theorem toList_zeros (k : ℕ) : ("".pushn '0' k).toList = List.replicate k '0' := by
  rw [String.pushn_eq_repeat_push]
  induction k with
  | zero => rfl
  | succ k ih => rw [List.replicate_succ', ← ih, Nat.repeat, String.toList_push]

/-- A written exponent has a sign, and then its digits behind as many zeros as it takes. -/
theorem toList_exponentText (width : ℕ) (e : ℤ) :
    ∃ k, (exponentText width e).toList =
      (if e < 0 then '-' else '+') :: (List.replicate k '0' ++ Nat.toDigits 10 e.natAbs) := by
  unfold exponentText
  simp only [String.toList_append, toList_zeros, String.toList_ofList, List.append_assoc]
  split_ifs
  · exact ⟨_, rfl⟩
  · exact ⟨_, rfl⟩

namespace Reading

theorem ends_nil : Ends [] := by
  rintro c ⟨⟩

theorem ends_cons {c : Char} (other : c.isDigit = false) (proper : c ≠ '_') : Ends (c :: cs) := by
  rintro d ⟨⟩
  exact ⟨other, proper⟩

/-- A written exponent is read for what it is. -/
theorem exponent?_exponentText (width : ℕ) (e : ℤ) :
    exponent? ('e' :: (exponentText width e).toList) = some e := by
  obtain ⟨k, text⟩ := toList_exponentText width e
  have read := digits_append ((areDigits_zeros k).append (areDigits_toDigits e.natAbs)) ends_nil
  rw [List.append_nil] at read
  have magnitude : value (List.replicate k '0' ++ Nat.toDigits 10 e.natAbs) = e.natAbs := by
    rw [value_append, value_zeros, value_toDigits, mul_zero, zero_add]
  have nonempty : List.replicate k '0' ++ Nat.toDigits 10 e.natAbs ≠ [] :=
    List.append_ne_nil_of_right_ne_nil _ Nat.toDigits_ne_nil
  rw [text]
  generalize List.replicate k '0' ++ Nat.toDigits 10 e.natAbs = digits at read magnitude nonempty ⊢
  obtain ⟨d, ds, rfl⟩ := List.exists_cons_of_ne_nil nonempty
  split_ifs with negative
  · simp only [exponent?, sign, read, magnitude]
    exact congrArg some (by change -(e.natAbs : ℤ) = e; omega)
  · simp only [exponent?, sign, read, magnitude]
    exact congrArg some (by change (e.natAbs : ℤ) = e; omega)

/-- A number with a point has all its digits read, and whatever exponent follows. -/
theorem magnitude?_point (nonempty : whole ≠ []) (digits : AreDigits whole)
    (decimals : AreDigits fraction) (ends : Ends cs) (exponent : exponent? cs = some e) :
    magnitude? (whole ++ '.' :: (fraction ++ cs)) =
      some (scaled (value (whole ++ fraction)) (e - fraction.length)) := by
  have point : Ends ('.' :: (fraction ++ cs)) := ends_cons rfl (by decide)
  have upTo := digits_append digits point
  have behind := digits_append decimals ends
  simp only [magnitude?, upTo, behind, exponent]
  rw [List.isEmpty_eq_false_iff.2 nonempty]
  rfl

/-- A number without a point is a whole number times the power of ten of its exponent. -/
theorem magnitude?_exponent (nonempty : whole ≠ []) (digits : AreDigits whole)
    (exponent : exponent? ('e' :: cs) = some e) :
    magnitude? (whole ++ 'e' :: cs) = some (scaled (value whole) e) := by
  have ends : Ends ('e' :: cs) := ends_cons rfl (by decide)
  have upTo := digits_append digits ends
  simp [magnitude?, upTo, exponent, nonempty]

end Reading

/-! ### Numerals -/

/-- The texts that layouts write, with a whole number and the power of ten that it is to be
multiplied by. -/
inductive Numeral : List Char → ℕ → ℤ → Prop
  | point {whole fraction : List Char} (nonempty : whole ≠ []) (digits : AreDigits whole)
      (decimals : AreDigits fraction) :
    Numeral (whole ++ '.' :: fraction) (value (whole ++ fraction)) (-fraction.length)
  | exponent {whole : List Char} (nonempty : whole ≠ []) (digits : AreDigits whole) (width : ℕ)
      (e : ℤ) :
    Numeral (whole ++ 'e' :: (exponentText width e).toList) (value whole) e
  | both {whole fraction : List Char} (nonempty : whole ≠ []) (digits : AreDigits whole)
      (decimals : AreDigits fraction) (width : ℕ) (e : ℤ) :
    Numeral (whole ++ '.' :: (fraction ++ 'e' :: (exponentText width e).toList))
      (value (whole ++ fraction)) (e - fraction.length)

namespace Numeral

/-- Numerals are read for what they stand for. -/
theorem magnitude?_eq (numeral : Numeral cs n e) :
    Reading.magnitude? cs = some (Reading.scaled n e) := by
  cases numeral with
  | @point whole fraction nonempty digits decimals =>
    have read := Reading.magnitude?_point nonempty digits decimals Reading.ends_nil rfl
    rwa [List.append_nil, zero_sub] at read
  | exponent nonempty digits =>
    exact Reading.magnitude?_exponent nonempty digits (Reading.exponent?_exponentText _ _)
  | both nonempty digits decimals =>
    exact Reading.magnitude?_point nonempty digits decimals
      (Reading.ends_cons rfl (by decide)) (Reading.exponent?_exponentText _ _)

/-- The first character of a numeral is a digit. -/
theorem exists_cons (numeral : Numeral cs n e) :
    ∃ d ds, d.isDigit ∧ cs = d :: ds := by
  have head {whole tail : List Char} (nonempty : whole ≠ []) (digits : AreDigits whole) :
      ∃ d ds, d.isDigit ∧ whole ++ tail = d :: ds := by
    obtain ⟨d, ds, rfl⟩ := List.exists_cons_of_ne_nil nonempty
    exact ⟨d, ds ++ tail, digits d List.mem_cons_self, rfl⟩
  cases numeral with
  | point nonempty digits => exact head nonempty digits
  | exponent nonempty digits => exact head nonempty digits
  | both nonempty digits => exact head nonempty digits

/-- The characters of numerals. -/
def characters : List Char := "0123456789.e+-".toList

theorem mem_characters_of_isDigit {c : Char} (digit : c.isDigit) : c ∈ characters := by
  obtain ⟨low, high⟩ := Char.isDigit_iff_toNat.1 digit
  have all : ∀ k ≤ 9, Char.ofNat (48 + k) ∈ characters := by decide
  have here := all (c.toNat - 48) (by change c.toNat ≤ 57 at high; omega)
  rwa [Nat.add_sub_cancel' (m := 48) low, Char.ofNat_toNat] at here

/-- The characters of exponents are among them. -/
theorem mem_exponentText {c : Char} (member : c ∈ (exponentText width e).toList) :
    c ∈ characters := by
  obtain ⟨k, text⟩ := toList_exponentText width e
  rw [text, List.mem_cons] at member
  rcases member with rfl | digit
  · split_ifs
    · decide
    · decide
  · exact mem_characters_of_isDigit
      ((areDigits_zeros k).append (areDigits_toDigits e.natAbs) c digit)

theorem mem_characters (numeral : Numeral cs n e) : ∀ c ∈ cs, c ∈ characters := by
  intro c member
  cases numeral with
  | point nonempty digits decimals =>
    rw [List.mem_append, List.mem_cons] at member
    rcases member with whole | rfl | fraction
    · exact mem_characters_of_isDigit (digits c whole)
    · decide
    · exact mem_characters_of_isDigit (decimals c fraction)
  | exponent nonempty digits =>
    rw [List.mem_append, List.mem_cons] at member
    rcases member with whole | rfl | exponent
    · exact mem_characters_of_isDigit (digits c whole)
    · decide
    · exact mem_exponentText exponent
  | both nonempty digits decimals =>
    rw [List.mem_append, List.mem_cons, List.mem_append, List.mem_cons] at member
    rcases member with whole | rfl | fraction | rfl | exponent
    · exact mem_characters_of_isDigit (digits c whole)
    · decide
    · exact mem_characters_of_isDigit (decimals c fraction)
    · decide
    · exact mem_exponentText exponent

end Numeral

namespace Layout

variable {layout : Layout}

/-! ### Layouts -/

/-- Numbers below one: zeros stand between the point and the digits. -/
theorem toList_text_below_one (positional : layout.lowest ≤ first ∧ first ≤ layout.highest)
    (small : first < 0) :
    (layout.text ds first).toList =
      ['0'] ++ '.' :: (List.replicate (-first - 1).toNat '0' ++ ds) := by
  simp only [text, if_pos positional, if_pos small, String.toList_append, toList_zeros,
    String.toList_ofList]
  rfl

/-- Numbers with no digit behind the point: zeros make up the places in front of it, and one stands
behind it. -/
theorem toList_text_whole (positional : layout.lowest ≤ first ∧ first ≤ layout.highest)
    (large : 0 ≤ first) (short : ds.length ≤ first.toNat + 1) :
    (layout.text ds first).toList =
      ds ++ List.replicate (first.toNat + 1 - ds.length) '0' ++ '.' :: ['0'] := by
  simp only [text, if_pos positional, if_neg large.not_gt, String.toList_append, toList_zeros,
    String.toList_ofList, List.take_of_length_le short, List.drop_of_length_le short]
  simp

/-- The point stands among the digits. -/
theorem toList_text_point (positional : layout.lowest ≤ first ∧ first ≤ layout.highest)
    (large : 0 ≤ first) (long : first.toNat + 1 < ds.length) :
    (layout.text ds first).toList =
      ds.take (first.toNat + 1) ++ '.' :: ds.drop (first.toNat + 1) := by
  simp only [text, if_pos positional, if_neg large.not_gt, String.toList_append, toList_zeros,
    String.toList_ofList, Nat.sub_eq_zero_of_le long.le]
  simp [long.not_ge]

/-- Numbers with an exponent: a point stands behind the first digit, unless that is the only one. -/
theorem toList_text_exponent (scientific : ¬ (layout.lowest ≤ first ∧ first ≤ layout.highest)) :
    (layout.text ds first).toList =
      ds.take 1 ++ (if ds.drop 1 = [] then [] else '.' :: ds.drop 1) ++
        'e' :: (exponentText layout.exponentDigits first).toList := by
  simp only [text, if_neg scientific, String.toList_append, String.toList_ofList,
    List.isEmpty_iff]
  split_ifs
  · simp
  · simp

/-- In any layout, digits stand for the number that they were chosen for. -/
theorem numeral_text (layout : Layout) (nonempty : ds ≠ []) (digits : AreDigits ds) (first : ℤ) :
    ∃ n e, Numeral (layout.text ds first).toList n e ∧
      (n : ℚ) * 10 ^ e = value ds * 10 ^ (first - (ds.length - 1 : ℕ)) := by
  obtain ⟨last, length⟩ : ∃ last, ds.length = last + 1 :=
    Nat.exists_eq_succ_of_ne_zero (List.length_pos_iff.2 nonempty).ne'
  rw [length, Nat.add_sub_cancel]
  -- Wherever the point stands, the digits behind it are counted off the exponent again.
  by_cases positional : layout.lowest ≤ first ∧ first ≤ layout.highest
  · rcases lt_or_ge first 0 with small | large
    · rw [toList_text_below_one positional small]
      refine ⟨_, _, .point (by simp) (areDigits_zeros 1) ((areDigits_zeros _).append digits), ?_⟩
      rw [value_append, value_append, value_zeros, value_zero, mul_zero, mul_zero, zero_add,
        zero_add, List.length_append, List.length_replicate, length]
      congr 2
      omega
    · rcases le_or_gt ds.length (first.toNat + 1) with short | long
      · rw [toList_text_whole positional large short]
        refine ⟨_, _, .point (by simp [nonempty]) (digits.append (areDigits_zeros _))
          (areDigits_zeros 1), ?_⟩
        obtain ⟨k, rfl⟩ : ∃ k : ℕ, first = last + k := ⟨(first - last).toNat, by omega⟩
        have filled : (last + k : ℤ).toNat + 1 - ds.length = k := by omega
        rw [filled, value_append, value_append, value_zeros, value_zero, add_zero, add_zero,
          List.length_replicate, add_sub_cancel_left, zpow_natCast]
        push_cast
        rw [List.length_singleton, Nat.cast_one, zpow_neg_one, pow_one]
        field_simp
      · rw [toList_text_point positional large long]
        refine ⟨_, _, .point (by simp [nonempty]) (digits.take _) (digits.drop _), ?_⟩
        rw [List.take_append_drop, List.length_drop, length]
        congr 2
        omega
  · rw [toList_text_exponent positional]
    split_ifs with single
    · rw [List.append_nil]
      refine ⟨_, _, .exponent (by simp [nonempty]) (digits.take 1) _ _, ?_⟩
      rw [List.drop_eq_nil_iff] at single
      rw [List.take_of_length_le single]
      congr 2
      omega
    · rw [List.append_assoc]
      refine ⟨_, _, .both (by simp [nonempty]) (digits.take 1) (digits.drop 1) _ _, ?_⟩
      rw [List.take_append_drop, List.length_drop, length, Nat.add_sub_cancel]

end Layout

end BalanceFit.Decimal
