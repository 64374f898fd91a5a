import Mathlib.Algebra.Order.Field.Basic
import Mathlib.Data.List.Sort
import Mathlib.Tactic.Linarith

/-! # Medians

The value in the middle of a list in order, or the mean of the two in the middle.  A majority of
the values has some on either side of it, and at least half of the values are not above it. -/

namespace Boom.Foundations

section

variable {α : Type} [LinearOrder α] {values sorted members : List α} {position : Nat}

def inOrder (values : List α) : List α := values.mergeSort fun first second => first ≤ second

theorem perm_inOrder (values : List α) : (inOrder values).Perm values := List.mergeSort_perm _ _

@[simp] theorem length_inOrder (values : List α) : (inOrder values).length = values.length := (perm_inOrder values).length_eq

theorem pairwise_inOrder (values : List α) : (inOrder values).Pairwise (· ≤ ·) := by
  have sorted := @List.pairwise_mergeSort _ (fun first second : α => decide (first ≤ second))
    (fun _ _ _ before after => decide_eq_true ((of_decide_eq_true before).trans (of_decide_eq_true after)))
    (fun first second => by simp [le_total]) values
  exact sorted.imp of_decide_eq_true

theorem inOrder_eq (perm : sorted.Perm values) (ordered : sorted.Pairwise (· ≤ ·)) : inOrder values = sorted :=
  ((perm_inOrder values).trans perm.symm).eq_of_pairwise (fun _ _ _ _ => le_antisymm) (pairwise_inOrder values) ordered

theorem countP_above (ordered : sorted.Pairwise (· ≤ ·)) (inside : position < sorted.length) :
    sorted.countP (fun value => sorted[position] < value) ≤ sorted.length - (position + 1) := by
  have split := List.take_append_drop (position + 1) sorted
  have none_ : (sorted.take (position + 1)).countP (fun value => sorted[position] < value) = 0 := by
    refine List.countP_eq_zero.mpr fun value there => ?_
    obtain ⟨index, isBelow, rfl⟩ := List.mem_take_iff_getElem.mp there
    have le := List.pairwise_iff_getElem.mp ordered index position
    simp only [decide_eq_true_eq, not_lt]
    rcases Nat.lt_or_ge index position with before | after
    · exact le (by omega) inside before
    · obtain rfl : index = position := by omega
      exact le_refl _
  calc sorted.countP (fun value => sorted[position] < value)
      = (sorted.take (position + 1) ++ sorted.drop (position + 1)).countP (fun value => sorted[position] < value) := by rw [split]
    _ = (sorted.drop (position + 1)).countP (fun value => sorted[position] < value) := by rw [List.countP_append, none_, Nat.zero_add]
    _ ≤ sorted.length - (position + 1) := by
      rw [← List.length_drop]
      exact List.countP_le_length

theorem countP_below (ordered : sorted.Pairwise (· ≤ ·)) (inside : position < sorted.length) :
    sorted.countP (fun value => value < sorted[position]) ≤ position := by
  have split := List.take_append_drop position sorted
  have none_ : (sorted.drop position).countP (fun value => value < sorted[position]) = 0 := by
    refine List.countP_eq_zero.mpr fun value there => ?_
    obtain ⟨index, isBelow, rfl⟩ := List.mem_drop_iff_getElem.mp there
    have le := List.pairwise_iff_getElem.mp ordered position (index + position) inside isBelow
    simp only [decide_eq_true_eq, not_lt, Nat.add_comm position index]
    rcases Nat.eq_zero_or_pos index with rfl | after
    · simp
    · exact le (by omega)
  calc sorted.countP (fun value => value < sorted[position])
      = (sorted.take position ++ sorted.drop position).countP (fun value => value < sorted[position]) := by rw [split]
    _ = (sorted.take position).countP (fun value => value < sorted[position]) := by rw [List.countP_append, none_, Nat.add_zero]
    _ ≤ position := by
      refine List.countP_le_length.trans ?_
      rw [List.length_take]
      exact Nat.min_le_left _ _

section

variable (sub : members.Subperm values) (inside : position < (inOrder values).length)
include sub

theorem exists_le_inOrder (enough : values.length < members.length + (position + 1)) :
    ∃ low ∈ members, low ≤ (inOrder values)[position] := by
  by_contra none_
  push Not at none_
  have all : members.countP (fun value => (inOrder values)[position] < value) = members.length :=
    List.countP_eq_length.mpr fun value there => decide_eq_true (none_ value there)
  have few := countP_above (pairwise_inOrder values) inside
  have le := sub.countP_le (fun value => decide ((inOrder values)[position] < value))
  rw [all, ← (perm_inOrder values).countP_eq] at le
  rw [length_inOrder] at few inside
  omega

theorem exists_ge_inOrder (enough : position < members.length) : ∃ high ∈ members, (inOrder values)[position] ≤ high := by
  by_contra none_
  push Not at none_
  have all : members.countP (fun value => value < (inOrder values)[position]) = members.length :=
    List.countP_eq_length.mpr fun value there => decide_eq_true (none_ value there)
  have few := countP_below (pairwise_inOrder values) inside
  have le := sub.countP_le (fun value => decide (value < (inOrder values)[position]))
  rw [all, ← (perm_inOrder values).countP_eq] at le
  omega

end

end

section

variable {α : Type} [Field α] [LinearOrder α] [IsStrictOrderedRing α] {values members : List α} {middle : α}

def median (values : List α) : Option α :=
  let sorted := inOrder values
  let mid := sorted.length / 2
  if sorted.length % 2 = 1 then sorted[mid]?
  else
    match sorted[mid - 1]?, sorted[mid]? with
    | some first, some second => some (1 / 2 * (first + second))
    | _, _ => none

theorem median_eq_some (isMedian : median values = some middle) :
    ∃ lower upper : Nat, ∃ (inside : lower < (inOrder values).length) (inside' : upper < (inOrder values).length),
      (inOrder values)[lower] ≤ middle ∧ middle ≤ (inOrder values)[upper] ∧
        values.length ≤ 2 * (lower + 1) ∧ 2 * upper ≤ values.length := by
  unfold median at isMedian
  dsimp only at isMedian
  rw [length_inOrder] at isMedian
  split at isMedian
  next odd =>
    obtain ⟨inside, rfl⟩ := List.getElem?_eq_some_iff.mp isMedian
    exact ⟨_, _, inside, inside, le_refl _, le_refl _, by omega, by omega⟩
  next even =>
    split at isMedian
    next first second isFirst isSecond =>
      obtain ⟨inside, rfl⟩ := List.getElem?_eq_some_iff.mp isFirst
      obtain ⟨inside', rfl⟩ := List.getElem?_eq_some_iff.mp isSecond
      have some_ : 0 < values.length := by rw [length_inOrder] at inside'; omega
      have le : (inOrder values)[values.length / 2 - 1] ≤ (inOrder values)[values.length / 2] :=
        List.pairwise_iff_getElem.mp (pairwise_inOrder values) _ _ inside inside' (by omega)
      rw [← Option.some.inj isMedian]
      refine ⟨_, _, inside, inside', by linarith, by linarith, by omega, by omega⟩
    next => cases isMedian

omit [IsStrictOrderedRing α] in
theorem exists_median (values : List α) (some_ : values ≠ []) : ∃ middle, median values = some middle := by
  have positive := List.length_pos_iff.mpr some_
  have inside : values.length / 2 < (inOrder values).length := by rw [length_inOrder]; omega
  have inside' : values.length / 2 - 1 < (inOrder values).length := by omega
  unfold median
  dsimp only
  rw [length_inOrder, List.getElem?_eq_getElem inside, List.getElem?_eq_getElem inside']
  split
  · exact ⟨_, rfl⟩
  · exact ⟨_, rfl⟩

theorem median_between (isMedian : median values = some middle) (sub : members.Subperm values)
    (half : values.length < 2 * members.length) : ∃ low ∈ members, ∃ high ∈ members, low ≤ middle ∧ middle ≤ high := by
  obtain ⟨lower, upper, inside, inside', above, below, isLower, isUpper⟩ := median_eq_some isMedian
  obtain ⟨low, isLow, le⟩ := exists_le_inOrder sub inside (by omega)
  obtain ⟨high, isHigh, ge⟩ := exists_ge_inOrder sub inside' (by omega)
  exact ⟨low, isLow, high, isHigh, le.trans above, below.trans ge⟩

theorem half_le_median (isMedian : median values = some middle) :
    values.length ≤ 2 * values.countP (fun value => value ≤ middle) := by
  obtain ⟨lower, -, inside, -, above, -, isLower, -⟩ := median_eq_some isMedian
  have few := countP_above (pairwise_inOrder values) inside
  have le : (inOrder values).countP (fun value => middle < value) ≤
      (inOrder values).countP (fun value => (inOrder values)[lower] < value) :=
    List.countP_mono_left fun value _ greater => decide_eq_true (above.trans_lt (of_decide_eq_true greater))
  have both : (inOrder values).length = _ := List.length_eq_countP_add_countP fun value => decide (middle < value)
  have notAbove : (inOrder values).countP (fun value => decide ¬ decide (middle < value) = true) =
      values.countP (fun value => decide (value ≤ middle)) := by
    rw [← (perm_inOrder values).countP_eq]
    refine List.countP_congr fun value _ => ?_
    simp
  rw [notAbove] at both
  rw [length_inOrder] at few inside both
  omega

end

end Boom.Foundations
