/-!
# Sums of many numbers

Where many numbers are added one after the other, rounding errors pile up. A long list is therefore
cut in half, and the sums of the halves are added. A list that is not long is read in rows of eight,
whose columns are summed side by side; the eight sums are added in pairs, and what did not fill a
row is added at the end.

## Main definitions

* `Lanes` : the eight sums
* `pairwiseSum` : the sum of a list

## Main statements

* `of_pairwiseSum` : what a sum has only if both of its parts do, every number has
* `pairwiseSum_eq_foldl` : where the order of a sum does not matter, it is that of the list
-/

namespace BalanceFit

variable {α : Type}

/-- Eight sums side by side. -/
structure Lanes (α : Type) where
  (a b c d e f g h : α)

namespace Lanes

/-- The sums from the first to the eighth. -/
def toList (s : Lanes α) : List α := [s.a, s.b, s.c, s.d, s.e, s.f, s.g, s.h]

/-- The sum of the eight sums, in pairs. -/
def total [Add α] (s : Lanes α) : α := ((s.a + s.b) + (s.c + s.d)) + ((s.e + s.f) + (s.g + s.h))

/-- The sums with rows of eight numbers added, as long as the list has eight, and what is left of
the list. -/
def addRows [Add α] (s : Lanes α) : List α → Lanes α × List α
  | a :: b :: c :: d :: e :: f :: g :: h :: l =>
    addRows ⟨s.a + a, s.b + b, s.c + c, s.d + d, s.e + e, s.f + f, s.g + g, s.h + h⟩ l
  | l => (s, l)

/-- The sum of the eight sums and of the numbers in a list. -/
def sumWith [Add α] (s : Lanes α) (l : List α) : α :=
  let (s, rest) := s.addRows l
  rest.foldl (· + ·) s.total

end Lanes

/-- The sum of a list that is cut in half at most `cuts` times in a row. -/
def halvedSum [Zero α] [Add α] : (cuts : Nat) → List α → α
  | 0, l => Lanes.sumWith ⟨0, 0, 0, 0, 0, 0, 0, 0⟩ l
  | cuts + 1, l =>
    if l.length ≤ 128 then Lanes.sumWith ⟨0, 0, 0, 0, 0, 0, 0, 0⟩ l
    else
      let half := l.length / 16 * 8
      halvedSum cuts (l.take half) + halvedSum cuts (l.drop half)

/-- The sum of a list. -/
def pairwiseSum [Zero α] [Add α] (l : List α) : α := halvedSum l.length l

section Parts

variable {p : α → Prop}

theorem of_foldl_add [Add α] (part : ∀ x y, p (x + y) → p x ∧ p y) {l : List α} {s : α}
    (h : p (l.foldl (· + ·) s)) : p s ∧ ∀ x ∈ l, p x := by
  induction l generalizing s with
  | nil => exact ⟨h, by simp⟩
  | cons x l ih =>
    obtain ⟨hs, hl⟩ := ih h
    exact ⟨(part _ _ hs).1, List.forall_mem_cons.2 ⟨(part _ _ hs).2, hl⟩⟩

theorem Lanes.of_sumWith [Add α] (part : ∀ x y, p (x + y) → p x ∧ p y) {s : Lanes α} {l : List α}
    (h : p (s.sumWith l)) : (∀ x ∈ s.toList, p x) ∧ ∀ x ∈ l, p x := by
  rw [sumWith] at h
  fun_induction addRows s l with
  | case1 s a b c d e f g h l ih =>
    obtain ⟨sums, hl⟩ := ih h
    simp only [toList, List.forall_mem_cons] at sums ⊢
    obtain ⟨ha, hb, hc, hd, he, hf, hg, hh, _⟩ := sums
    exact ⟨⟨(part _ _ ha).1, (part _ _ hb).1, (part _ _ hc).1, (part _ _ hd).1, (part _ _ he).1,
      (part _ _ hf).1, (part _ _ hg).1, (part _ _ hh).1, by simp⟩,
      (part _ _ ha).2, (part _ _ hb).2, (part _ _ hc).2, (part _ _ hd).2, (part _ _ he).2,
      (part _ _ hf).2, (part _ _ hg).2, (part _ _ hh).2, hl⟩
  | case2 s l =>
    obtain ⟨ht, hl⟩ := of_foldl_add part h
    obtain ⟨habcd, hefgh⟩ := part _ _ ht
    obtain ⟨⟨hab, hcd⟩, hef, hgh⟩ := And.intro (part _ _ habcd) (part _ _ hefgh)
    simp only [toList, List.forall_mem_cons]
    exact ⟨⟨(part _ _ hab).1, (part _ _ hab).2, (part _ _ hcd).1, (part _ _ hcd).2,
      (part _ _ hef).1, (part _ _ hef).2, (part _ _ hgh).1, (part _ _ hgh).2, by simp⟩, hl⟩

variable [Zero α] [Add α]

theorem of_halvedSum (part : ∀ x y, p (x + y) → p x ∧ p y) (cuts : Nat) {l : List α}
    (h : p (halvedSum cuts l)) : ∀ x ∈ l, p x := by
  induction cuts generalizing l with
  | zero => exact (Lanes.of_sumWith part h).2
  | succ cuts ih =>
    rw [halvedSum] at h
    split at h
    · exact (Lanes.of_sumWith part h).2
    · obtain ⟨front, back⟩ := part _ _ h
      intro x hx
      rw [← List.take_append_drop (l.length / 16 * 8) l] at hx
      exact (List.mem_append.1 hx).elim (ih front x) (ih back x)

theorem of_pairwiseSum (part : ∀ x y, p (x + y) → p x ∧ p y) {l : List α}
    (h : p (pairwiseSum l)) : ∀ x ∈ l, p x :=
  of_halvedSum part _ h

end Parts

section Order

theorem Lanes.sumWith_eq_foldl [Add α] [Std.Associative (α := α) (· + ·)]
    [Std.Commutative (α := α) (· + ·)] (s : Lanes α) (l : List α) :
    s.sumWith l = l.foldl (· + ·) s.total := by
  rw [sumWith]
  fun_induction addRows s l with
  | case1 s a b c d e f g h l ih =>
    rw [ih]
    simp only [List.foldl_cons, total]
    congr 1
    ac_rfl
  | case2 s l => rfl

variable [Zero α] [Add α] [Std.Associative (α := α) (· + ·)] [Std.Commutative (α := α) (· + ·)]
  [Std.LawfulIdentity (α := α) (· + ·) 0]

theorem halvedSum_eq_foldl (cuts : Nat) (l : List α) : halvedSum cuts l = l.foldl (· + ·) 0 := by
  have zero_add (x : α) : 0 + x = x := Std.LawfulLeftIdentity.left_id x
  have add_zero (x : α) : x + 0 = x := Std.LawfulRightIdentity.right_id x
  have foldl_add (l : List α) (x y : α) : l.foldl (· + ·) (x + y) = x + l.foldl (· + ·) y :=
    List.foldl_assoc
  have lanes (l : List α) : Lanes.sumWith ⟨0, 0, 0, 0, 0, 0, 0, 0⟩ l = l.foldl (· + ·) 0 := by
    simp [Lanes.sumWith_eq_foldl, Lanes.total, zero_add]
  induction cuts generalizing l with
  | zero => exact lanes l
  | succ cuts ih =>
    rw [halvedSum]
    split
    · exact lanes l
    · simp only [ih]
      conv => rhs; rw [← List.take_append_drop (l.length / 16 * 8) l, List.foldl_append]
      rw [← foldl_add, add_zero]

theorem pairwiseSum_eq_foldl (l : List α) : pairwiseSum l = l.foldl (· + ·) 0 :=
  halvedSum_eq_foldl _ l

end Order

end BalanceFit
