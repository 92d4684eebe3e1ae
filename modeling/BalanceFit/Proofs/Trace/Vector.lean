import Mathlib.Data.List.Basic
import BalanceFit.Proofs.Decimal.RoundTrip
import BalanceFit.Trace

/-!
# Reading vectors back

The text of a vector lists the texts of its entries in braces. If these have no commas in them, a
text can be cut at its separators, which gives the texts of the entries back; an empty vector is
told apart from one with a single entry by the braces with nothing between them.

## Main definitions

* `vectorParts` : the texts that a text in braces lists
* `readVector?` : the vector of the numbers that these texts stand for

## Main statements

* `split_intercalate` : texts that are joined by a separator are found again by cutting there
* `vectorText_readable` : vectors are told apart by their texts, and can be read from them
-/

namespace BalanceFit

open String.Slice.Pattern
open String.Slice.Pattern.Model

section Splitting

variable {c : Char} {sep : String}

/-- A separator does not begin within a part that lacks its first character. -/
theorem not_matchesAt_of_splits {s : String.Slice} {p q r : s.Pos} {t part rest : String}
    (first : sep.toList.head? = some c) (free : c ∉ part.toList)
    (start : p.Splits t (part ++ rest)) (stop : q.Splits (t ++ part) rest) (above : p ≤ r)
    (below : r < q) : ¬ MatchesAt sep r := by
  intro found
  obtain ⟨t₁, t₂, here⟩ := ForwardStringSearcher.matchesAt_iff_splits.1 found
  -- The part falls into what is before the place and what is behind it, which is not empty.
  obtain ⟨before, rfl, -⟩ := (start.le_iff_exists_eq_append here).1 above
  obtain ⟨behind, nonempty, parts, continued⟩ := (here.lt_iff_exists_eq_append stop).1 below
  obtain rfl : part = before ++ behind := by
    rw [String.append_assoc] at parts
    simpa using parts
  have head := congrArg (fun text : String => text.toList.head?) continued
  simp only [String.toList_append, List.head?_append, first, Option.some_or] at head
  cases characters : behind.toList with
  | nil => exact nonempty (String.toList_eq_nil_iff.1 characters)
  | cons d ds =>
    rw [characters, List.head?_cons, Option.some_or, Option.some.injEq] at head
    refine free ?_
    rw [head, String.toList_append, characters]
    exact List.mem_append_right _ List.mem_cons_self

variable [StrictPatternModel sep]

/-- The search for separators passes over a part that lacks their first character. -/
theorem exists_split_eq {s : String.Slice} {p : s.Pos} {t part rest : String}
    (first : sep.toList.head? = some c) (free : c ∉ part.toList)
    (start : p.Splits t (part ++ rest)) :
    ∃ (q : s.Pos) (order : p ≤ q), q.Splits (t ++ part) rest ∧ (s.slice p q order).copy = part ∧
      Model.split sep p p (Std.le_refl p) = Model.split sep p q order := by
  have whole : s.copy = (t ++ part) ++ rest := by rw [String.append_assoc, start.eq_append]
  have stop := String.Slice.Pos.splits_ofEqAppend whole
  have order := (start.le_iff_exists_eq_append stop).2 ⟨part, rfl, rfl⟩
  exact ⟨_, order, stop, (String.Slice.copy_slice_eq_iff_splits.2 ⟨t, rest, start, stop⟩).2,
    split_eq_of_not_matchesAt _ order fun r => not_matchesAt_of_splits first free start stop⟩

/-- From the place on at which joined parts begin, they are found one after the other. -/
theorem split_eq_of_splits {s : String.Slice} {p : s.Pos} {t : String} {parts : List String}
    (first : sep.toList.head? = some c) (free : ∀ part ∈ parts, c ∉ part.toList)
    (nonempty : parts ≠ []) (start : p.Splits t (sep.intercalate parts)) :
    (Model.split sep p p (Std.le_refl p)).map (·.toSlice.copy) = parts := by
  induction parts generalizing p t with
  | nil => exact absurd rfl nonempty
  | cons part parts ih =>
    have own := free part List.mem_cons_self
    cases parts with
    | nil =>
      rw [String.intercalate_singleton, ← String.append_empty (s := part)] at start
      obtain ⟨q, order, stop, copied, passed⟩ := exists_split_eq first own start
      obtain rfl := stop.eq_endPos_iff.2 rfl
      rw [passed, split_endPos]
      exact congrArg (fun text => [text]) copied
    | cons next parts =>
      rw [String.intercalate_cons_cons, String.append_assoc] at start
      obtain ⟨q, order, stop, copied, passed⟩ := exists_split_eq first own start
      have whole : s.copy = ((t ++ part) ++ sep) ++ sep.intercalate (next :: parts) := by
        rw [String.append_assoc, stop.eq_append]
      have behind := String.Slice.Pos.splits_ofEqAppend whole
      have found := ForwardStringSearcher.isLongestMatchAt_iff_splits.2 ⟨_, _, stop, behind⟩
      rw [passed, split_eq_of_isLongestMatchAt found, List.map_cons,
        ih (fun other member => free other (List.mem_cons_of_mem _ member)) (List.cons_ne_nil _ _)
          behind]
      exact congrArg (· :: next :: parts) copied

end Splitting

/-- Texts that are joined by a separator are found again by cutting there, if none of them has the
first character of the separator in it. -/
theorem split_intercalate {c : Char} {sep : String} {s : String.Slice} {parts : List String}
    (first : sep.toList.head? = some c) (free : ∀ part ∈ parts, c ∉ part.toList)
    (nonempty : parts ≠ []) (joined : s.copy = sep.intercalate parts) :
    (s.split sep).toList.map (·.copy) = parts := by
  have separates : sep ≠ "" := by
    rintro rfl
    cases first
  have := ForwardStringSearcher.strictPatternModel separates
  have := ForwardStringSearcher.lawfulToForwardSearcherModel separates
  rw [String.Slice.toList_split_eq_splitToSubslice, toList_splitToSubslice_eq_modelSplit,
    List.map_map]
  refine split_eq_of_splits first free nonempty ?_ (t := "")
  rw [← joined]
  exact s.splits_startPos

/-- The texts that a text in braces lists. -/
def vectorParts (text : String) : List String :=
  let inner := (text.drop 1).dropEnd 1
  if inner.isEmpty then [] else (inner.split ", ").toList.map (·.copy)

/-- The vector that a text in braces lists, its entries read by `read`. -/
def readVector? {α : Type} (read : String → Option α) (text : String) : Option (List α) :=
  (vectorParts text).mapM read

variable {α : Type} {number : α → String}

/-- Between the braces are the texts of the entries, joined by separators. -/
theorem copy_inner_vectorText (number : α → String) (v : List α) :
    (((vectorText number v).drop 1).dropEnd 1).copy = ", ".intercalate (v.map number) := by
  rw [← String.toList_inj, String.Slice.toList_copy_dropEnd, String.toList_copy_drop]
  simp [vectorText]

/-- The texts that the text of a vector lists are those of its entries. -/
theorem vectorParts_vectorText (nonempty : ∀ x, number x ≠ "")
    (free : ∀ x, ',' ∉ (number x).toList) (v : List α) :
    vectorParts (vectorText number v) = v.map number := by
  have inner := copy_inner_vectorText number v
  rw [vectorParts]
  cases v with
  | nil => exact if_pos (String.Slice.copy_eq_empty_iff.1 inner)
  | cons x v =>
    -- Something stands between the braces: the text of the first entry at least.
    have filled : ", ".intercalate ((x :: v).map number) ≠ "" := by
      cases v with
      | nil => exact ne_of_eq_of_ne String.intercalate_singleton (nonempty x)
      | cons y v => simp [nonempty x]
    rw [← inner, String.Slice.copy_ne_empty_iff] at filled
    rw [if_neg (Bool.eq_false_iff.1 filled)]
    refine split_intercalate (c := ',') (by decide) ?_ (List.cons_ne_nil _ _) inner
    intro part member
    obtain ⟨y, -, rfl⟩ := List.mem_map.1 member
    exact free y

/-- **Vectors can be read back.** Suppose that different numbers have different texts, and that a
text is not empty and has no comma in it. Then vectors with the same text have the same length and
the same entries, and who can read the numbers from their texts can read a vector from its text. -/
theorem vectorText_readable (different : Function.Injective number) (nonempty : ∀ x, number x ≠ "")
    (free : ∀ x, ',' ∉ (number x).toList) :
    (∀ u v : List α, vectorText number u = vectorText number v → u = v) ∧
    ∀ read : String → Option α, (∀ x, read (number x) = some x) →
      ∀ v : List α, readVector? read (vectorText number v) = some v := by
  have parts (v : List α) := vectorParts_vectorText nonempty free v
  refine ⟨fun u v same => ?_, fun read reads v => ?_⟩
  · have texts := congrArg vectorParts same
    rw [parts, parts] at texts
    exact List.map_injective_iff.2 different texts
  · rw [readVector?, parts, List.mapM_map]
    induction v with
    | nil => rfl
    | cons x v ih => simp [ih, reads x]

/-- The texts of doubles are such texts, and vectors of doubles can be read back. -/
theorem vectorText_readable_doubles :
    Function.Injective Decimal.shortestText ∧ (∀ x, Decimal.shortestText x ≠ "") ∧
    (∀ x, ',' ∉ (Decimal.shortestText x).toList) ∧
    (∀ u v, vectorText Decimal.shortestText u = vectorText Decimal.shortestText v → u = v) ∧
    ∀ v, readVector? Decimal.readFloat? (vectorText Decimal.shortestText v) = some v := by
  have readable := vectorText_readable Decimal.shortestText_injective Decimal.shortestText_ne_empty
    Decimal.comma_notMem_shortestText
  exact ⟨Decimal.shortestText_injective, Decimal.shortestText_ne_empty,
    Decimal.comma_notMem_shortestText, readable.1,
    readable.2 Decimal.readFloat? Decimal.readFloat?_shortestText⟩

end BalanceFit
