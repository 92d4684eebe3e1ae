import BalanceFit.Proofs.Decimal.Layout
import BalanceFit.Proofs.Decimal.PowersOfTen
import BalanceFit.Proofs.Decimal.Shortest

/-!
# Written doubles read back

The text of a double has the digits of a number that rounds to it, laid out so that the reader finds
them again. So reading undoes writing, and no two doubles are written alike.

## Main statements

* `readFloat?_shortestText` : the text of a double is read as that double
* `shortestText_injective` : different doubles have different texts
-/

namespace BalanceFit.Decimal

variable {cs : List Char} {text : String} {m n : ℕ} {q e : ℤ} {x : Float} {negative : Bool}

/-! ### Reading numerals with a sign -/

namespace Reading

/-- There is nothing to trim where no blanks are. -/
theorem trim_eq (plain : ∀ c ∈ cs, isBlank c = false) : trim cs = cs := by
  have kept {ds : List Char} (plain : ∀ c ∈ ds, isBlank c = false) : ds.dropWhile isBlank = ds := by
    cases ds with
    | nil => rfl
    | cons d ds => rw [List.dropWhile_cons, plain d List.mem_cons_self, if_neg Bool.false_ne_true]
  rw [trim, kept plain, kept fun c member => plain c (List.mem_reverse.1 member),
    List.reverse_reverse]

theorem sign_of_isDigit {c : Char} (digit : c.isDigit) : sign (c :: cs) = (false, c :: cs) := by
  unfold sign
  split
  · rename_i minus
    obtain ⟨rfl, -⟩ := List.cons.inj minus
    cases digit
  · rename_i plus
    obtain ⟨rfl, -⟩ := List.cons.inj plus
    cases digit
  · rfl

end Reading

namespace Numeral

/-- The characters of numerals are read as they are, and none of them is a comma. -/
theorem plain_of_mem_characters : ∀ c ∈ characters,
    Reading.isBlank c = false ∧ Text.westernDigit c = c ∧ c.toLower = c ∧ c ≠ ',' := by
  have all : characters.all fun c =>
    Reading.isBlank c = false ∧ Text.westernDigit c = c ∧ c.toLower = c ∧ c ≠ ',' := by decide
  intro c member
  exact of_decide_eq_true (List.all_eq_true.1 all c member)

/-- A numeral behind a sign is read for what it stands for, or for the negative of that. -/
theorem readFloat?_eq (numeral : Numeral cs n e) (plain : ∀ c ∈ text.toList, c ∈ characters)
    (split : Reading.sign text.toList = (negative, cs)) :
    readFloat? text = some (if negative then -Reading.scaled n e else Reading.scaled n e) := by
  have trimmed := Reading.trim_eq fun c member => (plain_of_mem_characters c (plain c member)).1
  have western : text.toList.map Text.westernDigit = text.toList :=
    (List.map_congr_left fun c member => (plain_of_mem_characters c (plain c member)).2.1).trans
      (List.map_id _)
  have lower : cs.map Char.toLower = cs :=
    (List.map_congr_left fun c member =>
      (plain_of_mem_characters c (numeral.mem_characters c member)).2.2.1).trans (List.map_id _)
  -- The words for the values that are no numbers have a letter that is in no numeral.
  have noWord (word : String) (letter : 'n' ∈ word.toList) :
      (String.ofList cs == word) = false := by
    rw [beq_eq_false_iff_ne]
    rintro rfl
    rw [String.toList_ofList] at letter
    exact absurd (numeral.mem_characters 'n' letter) (by decide)
  simp only [readFloat?, trimmed, western, split, lower, noWord "inf" (by decide),
    noWord "infinity" (by decide), noWord "nan" (by decide), numeral.magnitude?_eq]
  rfl

/-- A numeral is read for what it stands for, and with a minus in front for the negative of that. -/
theorem readFloat?_signed (numeral : Numeral text.toList n e) (negative : Bool) :
    readFloat? (if negative then "-" ++ text else text) =
      some (if negative then -Reading.scaled n e else Reading.scaled n e) := by
  obtain ⟨d, ds, digit, begins⟩ := numeral.exists_cons
  cases negative with
  | false =>
    refine numeral.readFloat?_eq numeral.mem_characters ?_
    change Reading.sign text.toList = _
    rw [begins]
    exact Reading.sign_of_isDigit digit
  | true =>
    have signed : ("-" ++ text).toList = '-' :: text.toList := String.toList_append
    refine numeral.readFloat?_eq ?_ ?_
    · change ∀ c ∈ ("-" ++ text).toList, _
      rw [signed, List.forall_mem_cons]
      exact ⟨by decide, numeral.mem_characters⟩
    · change Reading.sign ("-" ++ text).toList = _
      rw [signed]
      rfl

end Numeral

/-! ### The texts of doubles -/

/-- A finite double is written as a numeral for a number that is read as its magnitude, with a minus
in front of it if it is negative. -/
theorem exists_numeral_shortestText (value : Binary64.ofFloat x = .finite negative m q) :
    ∃ text n e, Numeral text.toList n e ∧
      Reading.scaled n e = (Binary64.finite false m q).toFloat ∧
      shortestText x = if negative then "-" ++ text else text := by
  obtain ⟨canonical, bounded⟩ := Binary64.canonical_of_ofFloat value
  rw [shortestText, value]
  simp only
  rcases Nat.eq_zero_or_pos m with rfl | pos
  · have zero : Numeral ['0', '.', '0'] 0 (-1) :=
      .point (List.cons_ne_nil '0' []) (areDigits_zeros 1) (areDigits_zeros 1)
    exact ⟨"0.0", _, _, zero, rfl, rfl⟩
  · rw [if_neg pos.ne']
    have rounds := Shortest.roundsTo_digits canonical pos
    generalize Shortest.digits m q = chosen at rounds ⊢
    obtain ⟨digits, place⟩ := chosen
    have nonzero : 0 < digits := by
      refine Nat.pos_of_ne_zero fun zero => (rounds.pos_of_pos pos).ne' ?_
      rw [zero, Nat.cast_zero, zero_mul]
    obtain ⟨n, e, numeral, same⟩ := Layout.plain.numeral_text (dropZeros_ne_nil nonzero)
      (areDigits_dropZeros digits)
      (place + (Shortest.dropZeros digits).2 + ((Shortest.dropZeros digits).1.length - 1 : ℕ))
    refine ⟨_, n, e, numeral, Reading.scaled_eq canonical bounded pos ?_, rfl⟩
    -- The zeros that were dropped are in the exponent.
    have dropped : (digits : ℚ) = 10 ^ (Shortest.dropZeros digits).2 *
        Reading.value (Shortest.dropZeros digits).1 := by
      exact_mod_cast (value_dropZeros digits).symm
    rw [same, add_sub_cancel_right, zpow_add₀ (by norm_num), zpow_natCast]
    rw [dropped] at rounds
    convert rounds using 1
    ring

/-- **Reading undoes writing.** -/
theorem readFloat?_shortestText (x : Float) : readFloat? (shortestText x) = some x := by
  cases value : Binary64.ofFloat x with
  | nan =>
    rw [shortestText, ← Binary64.toFloat_ofFloat x, value]
    decide
  | infinite negative =>
    rw [shortestText, ← Binary64.toFloat_ofFloat x, value]
    cases negative <;> decide
  | finite negative m q =>
    obtain ⟨canonical, bounded⟩ := Binary64.canonical_of_ofFloat value
    obtain ⟨text, n, e, numeral, magnitude, written⟩ := exists_numeral_shortestText value
    rw [written, numeral.readFloat?_signed, magnitude, ← Binary64.toFloat_ofFloat x, value]
    cases negative with
    | false => rfl
    | true => exact congrArg some (Binary64.neg_toFloat canonical bounded)

/-- Different doubles have different texts. -/
theorem shortestText_injective : Function.Injective shortestText := by
  intro x y same
  have read := readFloat?_shortestText x
  rw [same, readFloat?_shortestText] at read
  exact (Option.some.inj read).symm

theorem shortestText_ne_empty (x : Float) : shortestText x ≠ "" := by
  intro empty
  have read := readFloat?_shortestText x
  rw [empty] at read
  cases read

/-- There is no comma in the text of a double. -/
theorem comma_notMem_shortestText (x : Float) : ',' ∉ (shortestText x).toList := by
  cases value : Binary64.ofFloat x with
  | nan =>
    rw [shortestText, value]
    decide
  | infinite negative =>
    rw [shortestText, value]
    cases negative <;> decide
  | finite negative m q =>
    obtain ⟨text, n, e, numeral, -, written⟩ := exists_numeral_shortestText value
    have free : ',' ∉ text.toList := fun member =>
      (Numeral.plain_of_mem_characters ',' (numeral.mem_characters ',' member)).2.2.2 rfl
    rw [written]
    cases negative with
    | false => exact free
    | true =>
      change ',' ∉ ("-" ++ text).toList
      rw [String.toList_append, List.mem_append]
      exact not_or_intro (by decide) free

end BalanceFit.Decimal
