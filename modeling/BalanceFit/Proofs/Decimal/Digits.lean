import Mathlib.Algebra.Order.Field.Power
import Mathlib.Data.List.Basic
import Mathlib.Tactic.Positivity
import BalanceFit.Decimal.Reading
import BalanceFit.Decimal.Shortest

/-!
# Digits written and read

The digits of a number are read up to where something else begins, and stand for the number again.
Zeros at the end can be dropped and counted.

## Main definitions

* `AreDigits` : the lists of digits
* `Reading.Ends` : what may stand behind digits

## Main statements

* `Reading.digits_append` : digits are read up to where they end
* `value_dropZeros` : digits and dropped zeros make up the number
-/

namespace BalanceFit.Decimal

variable {n k : ℕ} {c : Char} {ds cs : List Char}

/-! ### The digits of a number -/

theorem lt_ten_pow_length (n : ℕ) : n < 10 ^ (Nat.toDigits 10 n).length :=
  (Nat.length_toDigits_le_iff (by decide) (List.length_pos_iff.2 Nat.toDigits_ne_nil)).1 le_rfl

theorem ten_pow_length_le (pos : 0 < n) : 10 ^ ((Nat.toDigits 10 n).length - 1) ≤ n := by
  rcases Nat.eq_zero_or_pos ((Nat.toDigits 10 n).length - 1) with single | more
  · rw [single]
    exact pos
  · by_contra! less
    have := (Nat.length_toDigits_le_iff (by decide) more).2 less
    omega

/-- A list of characters that are digits. -/
def AreDigits (ds : List Char) : Prop := ∀ c ∈ ds, c.isDigit

theorem areDigits_toDigits (n : ℕ) : AreDigits (Nat.toDigits 10 n) :=
  fun _ member => Nat.isDigit_of_mem_toDigits (by decide) (by decide) member

theorem areDigits_zeros (k : ℕ) : AreDigits (List.replicate k '0') := by
  intro c member
  rw [List.eq_of_mem_replicate member]
  rfl

theorem AreDigits.append (first : AreDigits ds) (second : AreDigits cs) : AreDigits (ds ++ cs) := by
  intro c member
  exact (List.mem_append.1 member).elim (first c) (second c)

theorem AreDigits.take (digits : AreDigits ds) (k : ℕ) : AreDigits (ds.take k) :=
  fun c member => digits c (List.mem_of_mem_take member)

theorem AreDigits.drop (digits : AreDigits ds) (k : ℕ) : AreDigits (ds.drop k) :=
  fun c member => digits c (List.mem_of_mem_drop member)

namespace Reading

@[simp]
theorem value_toDigits (n : ℕ) : value (Nat.toDigits 10 n) = n := Nat.ofDigitChars_ten_toDigits

theorem value_append (ds cs : List Char) :
    value (ds ++ cs) = 10 ^ cs.length * value ds + value cs :=
  (Nat.ofDigitChars_append 0).trans Nat.ofDigitChars_eq_ofDigitChars_zero

theorem value_zero : value ['0'] = 0 := rfl

@[simp]
theorem value_zeros (k : ℕ) : value (List.replicate k '0') = 0 := Nat.ofDigitChars_replicate_zero

/-- The digits end here: what follows does not begin with one, nor with an underscore. -/
def Ends (cs : List Char) : Prop := ∀ c, cs.head? = some c → c.isDigit = false ∧ c ≠ '_'

theorem digits_of_ends (ends : Ends cs) : digits cs = ([], cs) := by
  unfold digits
  split
  · rename_i c d cs
    simp [(ends c rfl).1]
  · rename_i c cs _
    simp [(ends c rfl).1]
  · rfl

theorem digits_cons (digit : c.isDigit) (proper : cs.head? ≠ some '_') :
    digits (c :: cs) = (c :: (digits cs).1, (digits cs).2) := by
  rw [digits.eq_def]
  split
  · rename_i equal
    obtain ⟨-, rfl⟩ := List.cons.inj equal
    exact absurd rfl proper
  · rename_i equal
    obtain ⟨rfl, rfl⟩ := List.cons.inj equal
    rw [if_pos digit]
  · rename_i equal
    cases equal

/-- Digits are read up to where they end. -/
theorem digits_append (areDigits : AreDigits ds) (ends : Ends cs) :
    digits (ds ++ cs) = (ds, cs) := by
  induction ds with
  | nil => exact digits_of_ends ends
  | cons c ds ih =>
    -- Behind a digit the reader first looks for an underscore.
    have proper : (ds ++ cs).head? ≠ some '_' := by
      cases ds with
      | nil => exact fun underscore => (ends _ underscore).2 rfl
      | cons d ds =>
        rintro ⟨⟩
        exact Bool.false_ne_true (areDigits '_' (by simp))
    rw [List.cons_append, digits_cons (areDigits c List.mem_cons_self) proper,
      ih fun d member => areDigits d (List.mem_cons_of_mem c member)]

end Reading

/-- The zeros that are dropped are those at the end. -/
theorem dropZeros_append (n : ℕ) :
    (Shortest.dropZeros n).1 ++ List.replicate (Shortest.dropZeros n).2 '0' =
      Nat.toDigits 10 n := by
  have zeros : (Nat.toDigits 10 n).reverse.takeWhile (· == '0') =
      List.replicate (Shortest.dropZeros n).2 '0' := by
    refine List.eq_replicate_iff.2 ⟨rfl, fun c member => ?_⟩
    exact eq_of_beq (List.all_eq_true.1 List.all_takeWhile c member)
  rw [← List.reverse_inj, List.reverse_append, List.reverse_replicate, ← zeros,
    Shortest.dropZeros, List.reverse_reverse]
  exact List.prefix_iff_eq_append.1 (List.takeWhile_prefix _)

theorem areDigits_dropZeros (n : ℕ) : AreDigits (Shortest.dropZeros n).1 := by
  intro c member
  refine areDigits_toDigits n c ?_
  rw [← dropZeros_append]
  exact List.mem_append_left _ member

theorem value_dropZeros (n : ℕ) :
    10 ^ (Shortest.dropZeros n).2 * Reading.value (Shortest.dropZeros n).1 = n := by
  have value := congrArg Reading.value (dropZeros_append n)
  rwa [Reading.value_append, Reading.value_zeros, Reading.value_toDigits, add_zero,
    List.length_replicate] at value

theorem dropZeros_ne_nil (pos : 0 < n) : (Shortest.dropZeros n).1 ≠ [] := by
  intro empty
  have value := value_dropZeros n
  rw [empty] at value
  exact pos.ne value

end BalanceFit.Decimal
