import Mathlib.Data.List.Destutter
import Mathlib.Data.List.Sort

/-! # Ascending lists

A list of different items in ascending order stands for a set. -/

namespace Boom.Foundations

variable {α : Type} [LinearOrder α]

def ascending (items : List α) : List α :=
  (items.insertionSort (· ≤ ·)).destutter (· ≠ ·)

def StrictlyAscending (items : List α) : Prop :=
  items.Pairwise (· < ·)

theorem ascending_eq_dedup (items : List α) : ascending items = (items.insertionSort (· ≤ ·)).dedup :=
  (List.pairwise_insertionSort (· ≤ ·) items).destutter_eq_dedup

@[simp] theorem mem_ascending {item : α} {items : List α} : item ∈ ascending items ↔ item ∈ items := by
  rw [ascending_eq_dedup, List.mem_dedup, List.mem_insertionSort]

theorem nodup_ascending (items : List α) : (ascending items).Nodup := by
  rw [ascending_eq_dedup]
  exact List.nodup_dedup _

theorem strictlyAscending_ascending (items : List α) : StrictlyAscending (ascending items) := by
  have sorted : (ascending items).Pairwise (· ≤ ·) :=
    (List.pairwise_insertionSort (· ≤ ·) items).sublist (List.destutter_sublist _ _)
  exact (sorted.and (nodup_ascending items)).imp fun order => lt_of_le_of_ne order.1 order.2

theorem StrictlyAscending.nodup {items : List α} (inOrder : StrictlyAscending items) : items.Nodup :=
  inOrder.imp ne_of_lt

theorem StrictlyAscending.sublist_iff_subset {small big : List α} (inOrder : StrictlyAscending small) (inOrder' : StrictlyAscending big) :
    small.Sublist big ↔ small ⊆ big := by
  refine ⟨List.Sublist.subset, fun within => ?_⟩
  exact List.sublist_of_subperm_of_pairwise (List.subperm_of_subset inOrder.nodup within)
    (inOrder.imp le_of_lt) (inOrder'.imp le_of_lt)

end Boom.Foundations
