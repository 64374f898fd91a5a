import Mathlib.Data.List.Sort

/-! # Lists read page by page

A list whose items are at ascending positions is known from its items, and what comes
after one of them is the rest of the list. -/

namespace Boom.Foundations

variable {α P : Type} [LinearOrder P]

def Ascending (position : α → P) (items : List α) : Prop :=
  items.Pairwise fun first second => position first < position second

namespace Ascending

variable {position : α → P} {items others : List α}

section

variable (ascending : Ascending position items)
include ascending

theorem nodup : items.Nodup := by
  refine ascending.imp ?_
  rintro first _ before rfl
  exact lt_irrefl _ before

theorem ext (ascending' : Ascending position others)
    (same : ∀ item, item ∈ items ↔ item ∈ others) : items = others := by
  have perm : items.Perm others := (List.perm_ext_iff_of_nodup ascending.nodup ascending'.nodup).mpr same
  exact perm.eq_of_pairwise (fun first second _ _ before after => absurd (before.trans after) (lt_irrefl _))
    ascending ascending'

theorem drop (n : Nat) : Ascending position (items.drop n) :=
  ascending.sublist (List.drop_sublist n items)

theorem after {i : Nat} {item : α} (found : items[i]? = some item) :
    items.filter (fun other => position item < position other) = items.drop (i + 1) := by
  obtain ⟨bound, here⟩ := List.getElem?_eq_some_iff.mp found
  have split := List.take_append_drop (i + 1) items
  have cut : Ascending position (items.take (i + 1) ++ items.drop (i + 1)) := by rwa [split]
  obtain ⟨_, _, across⟩ := List.pairwise_append.mp cut
  have last : item ∈ items.take (i + 1) := List.mem_take_iff_getElem.mpr ⟨i, by omega, here⟩
  conv_lhs => rw [← split]
  rw [List.filter_append]
  have none_ : (items.take (i + 1)).filter (fun other => position item < position other) = [] := by
    rw [List.filter_eq_nil_iff]
    intro other member
    obtain ⟨j, early, rfl⟩ := List.mem_take_iff_getElem.mp member
    rw [decide_eq_true_eq, not_lt, ← here]
    rcases Nat.lt_or_eq_of_le (show j ≤ i by omega) with before | rfl
    · exact (List.pairwise_iff_getElem.mp ascending j i (by omega) bound before).le
    · exact le_rfl
  have all : (items.drop (i + 1)).filter (fun other => position item < position other) = items.drop (i + 1) := by
    rw [List.filter_eq_self]
    intro other member
    exact decide_eq_true (across _ last other member)
  rw [none_, all, List.nil_append]

end

end Ascending

theorem ascending_mergeSort {position : α → P} {items : List α} (apart : (items.map position).Nodup) :
    Ascending position (items.mergeSort fun first second => position first ≤ position second) := by
  have ordered := @List.pairwise_mergeSort _ (fun first second : α => decide (position first ≤ position second))
    (fun first second third => by simpa using le_trans) (fun first second => by simpa using le_total _ _) items
  have perm := List.mergeSort_perm items fun first second => decide (position first ≤ position second)
  have apart' := ((perm.map position).nodup_iff.mpr apart)
  refine (ordered.and (List.pairwise_map.mp apart')).imp ?_
  rintro first second ⟨atMost, different⟩
  exact lt_of_le_of_ne (by simpa using atMost) different

end Boom.Foundations
