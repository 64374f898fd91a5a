import Mathlib.Data.List.Sort

/-! # Sorting by a key

Stable sorts by a key, upwards and downwards.  What is seen of the items by way of the key alone is
decided by which items there are, and not by the order they came in. -/

namespace Boom.Foundations

section

variable {α β κ : Type} [LinearOrder κ]

def rising (key : α → κ) (items : List α) : List α :=
  items.mergeSort fun first second => decide (key first ≤ key second)

def falling (key : α → κ) (items : List α) : List α :=
  rising (OrderDual.toDual ∘ key) items

variable {key : α → κ} {items items' : List α}

theorem rising_perm (key : α → κ) (items : List α) : (rising key items).Perm items := List.mergeSort_perm _ _

theorem falling_perm (key : α → κ) (items : List α) : (falling key items).Perm items := rising_perm _ _

theorem rising_sorted (key : α → κ) (items : List α) :
    (rising key items).Pairwise fun first second => key first ≤ key second := by
  have sorted : (rising key items).Pairwise fun first second => decide (key first ≤ key second) = true :=
    List.pairwise_mergeSort (fun first second third => by simpa using le_trans) (fun first second => by simpa using le_total _ _) items
  exact sorted.imp of_decide_eq_true

theorem falling_sorted (key : α → κ) (items : List α) :
    (falling key items).Pairwise fun first second => key second ≤ key first :=
  rising_sorted (OrderDual.toDual ∘ key) items

theorem map_rising_of_perm (same : items.Perm items') : (rising key items).map key = (rising key items').map key := by
  have moved : (rising key items).Perm (rising key items') := ((rising_perm key items).trans same).trans (rising_perm key items').symm
  exact (moved.map key).eq_of_pairwise' (List.pairwise_map.mpr (rising_sorted key items))
    (List.pairwise_map.mpr (rising_sorted key items'))

theorem map_falling {seen : α → β} {key' : β → κ} (sees : ∀ item ∈ items, key' (seen item) = key item) :
    (falling key items).map seen = falling key' (items.map seen) := by
  refine List.map_mergeSort fun first isFirst second isSecond => ?_
  simp only [Function.comp_apply, sees first isFirst, sees second isSecond]

end

end Boom.Foundations
