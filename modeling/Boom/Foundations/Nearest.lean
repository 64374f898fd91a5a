import Mathlib.Data.List.Count
import Mathlib.Data.List.Infix
import Mathlib.Data.List.Perm.Subperm
import Mathlib.Order.Lattice

/-! # The nearest items of a search

A search looks at items one after another and keeps the nearest few in the order of their distances.  What
an item has to be below in order to be kept is the limit while there is room, and then the distance of the
last one kept.  Every item that was seen and is not kept is at or above it, so items that are known to be
there need not be looked at. -/

namespace Boom.Foundations

namespace Nearest

variable {ι F : Type}

section

variable [LinearOrder F]

def bound (most : Nat) (limit : F) (best : List (F × ι)) : F :=
  if best.length = most then (best[most - 1]?.map Prod.fst).getD limit else limit

def putInOrder (entry : F × ι) (best : List (F × ι)) : List (F × ι) :=
  best.takeWhile (fun held => held.1 ≤ entry.1) ++ entry :: best.dropWhile (fun held => held.1 ≤ entry.1)

def offer (most : Nat) (limit : F) (distance : F) (item : ι) (best : List (F × ι)) : List (F × ι) :=
  if distance < bound most limit best then (putInOrder (distance, item) best).take most else best

end

def kept (best : List (F × ι)) : List ι := best.map Prod.snd

end Nearest

open Nearest

/-- What is kept of the items seen. -/
structure Nearest {ι F : Type} [LinearOrder F] (distance : ι → F) (most : Nat) (limit : F) (seen : List ι) (best : List (F × ι)) : Prop where
  among : ∀ entry ∈ best, entry.1 = distance entry.2 ∧ entry.2 ∈ seen ∧ entry.1 < limit
  distinct : (kept best).Nodup
  sorted : best.Pairwise fun one other => one.1 ≤ other.1
  few : best.length ≤ most
  outside : ∀ item ∈ seen, item ∉ kept best → bound most limit best ≤ distance item

namespace Nearest

section

variable {ι F : Type} [LinearOrder F]

variable {distance : ι → F} {most : Nat} {limit : F} {seen : List ι} {best : List (F × ι)}

theorem nearest_nil (distance : ι → F) (most : Nat) (limit : F) : Nearest distance most limit [] [] where
  among := by simp
  distinct := List.nodup_nil
  sorted := List.Pairwise.nil
  few := Nat.zero_le _
  outside := by simp

theorem perm {seen' : List ι} (nearest : Nearest distance most limit seen best) (same : seen.Perm seen') :
    Nearest distance most limit seen' best where
  among entry member := by
    obtain ⟨isDistance, there, near⟩ := nearest.among entry member
    exact ⟨isDistance, same.mem_iff.mp there, near⟩
  distinct := nearest.distinct
  sorted := nearest.sorted
  few := nearest.few
  outside item there := nearest.outside item (same.mem_iff.mpr there)

theorem skip {others : List ι} (nearest : Nearest distance most limit seen best)
    (far : ∀ item ∈ others, bound most limit best ≤ distance item) :
    Nearest distance most limit (others ++ seen) best where
  among entry member := by
    obtain ⟨isDistance, there, near⟩ := nearest.among entry member
    exact ⟨isDistance, List.mem_append_right _ there, near⟩
  distinct := nearest.distinct
  sorted := nearest.sorted
  few := nearest.few
  outside item there left := by
    rcases List.mem_append.mp there with other | old
    · exact far item other
    · exact nearest.outside item old left

/-! ## The bound -/

omit [LinearOrder F] in
theorem bound_of_room {best : List (F × ι)} (room : best.length ≠ most) : bound most limit best = limit := by
  rw [bound, if_neg room]

omit [LinearOrder F] in
theorem bound_of_full {front : List (F × ι)} {last : F × ι} (full : (front ++ [last]).length = most) :
    bound most limit (front ++ [last]) = last.1 := by
  have place : most - 1 = front.length := by
    rw [← full]
    simp
  rw [bound, if_pos full, place]
  simp

theorem le_bound (nearest : Nearest distance most limit seen best) {entry : F × ι} (member : entry ∈ best) :
    entry.1 ≤ bound most limit best := by
  by_cases full : best.length = most
  · obtain ⟨front, last, rfl⟩ := (List.eq_nil_or_concat best).resolve_left (List.ne_nil_of_mem member)
    rw [List.concat_eq_append] at *
    rw [bound_of_full full]
    rcases List.mem_append.mp member with before | isLast
    · exact (List.pairwise_append.mp nearest.sorted).2.2 entry before last (by simp)
    · rw [List.mem_singleton.mp isLast]
  · rw [bound_of_room full]
    exact (nearest.among entry member).2.2.le

theorem bound_le (nearest : Nearest distance most limit seen best) : bound most limit best ≤ limit := by
  rcases List.eq_nil_or_concat best with rfl | ⟨front, last, rfl⟩
  · simp [bound]
  · rw [List.concat_eq_append] at *
    by_cases full : (front ++ [last]).length = most
    · rw [bound_of_full full]
      exact (nearest.among last (by simp)).2.2.le
    · rw [bound_of_room full]

/-! ## Looking at an item -/

theorem putInOrder_perm (entry : F × ι) (best : List (F × ι)) : (putInOrder entry best).Perm (entry :: best) := by
  have whole := List.takeWhile_append_dropWhile (p := fun held => decide (held.1 ≤ entry.1)) (l := best)
  exact List.perm_middle.trans ((List.Perm.of_eq whole).cons entry)

theorem putInOrder_sorted {entry : F × ι} (sorted : best.Pairwise fun one other => one.1 ≤ other.1) :
    (putInOrder entry best).Pairwise fun one other => one.1 ≤ other.1 := by
  induction best with
  | nil => simp [putInOrder]
  | cons first rest ih =>
    obtain ⟨least, sorted⟩ := List.pairwise_cons.mp sorted
    by_cases before : first.1 ≤ entry.1
    · have later := ih sorted
      have shape : putInOrder entry (first :: rest) = first :: putInOrder entry rest := by
        simp [putInOrder, before]
      rw [shape]
      refine List.pairwise_cons.mpr ⟨fun other member => ?_, later⟩
      rcases List.mem_cons.mp ((putInOrder_perm entry rest).mem_iff.mp member) with rfl | inRest
      · exact before
      · exact least other inRest
    · have shape : putInOrder entry (first :: rest) = entry :: first :: rest := by
        simp [putInOrder, before]
      have below : entry.1 ≤ first.1 := le_of_lt (not_le.mp before)
      rw [shape]
      refine List.pairwise_cons.mpr ⟨fun other member => ?_, List.pairwise_cons.mpr ⟨least, sorted⟩⟩
      rcases List.mem_cons.mp member with rfl | inRest
      · exact below
      · exact below.trans (least other inRest)

section

variable (positive : 1 ≤ most) {whole : List (F × ι)}
include positive

theorem bound_take_le {ceiling : F} (below : ∀ entry ∈ whole, entry.1 ≤ ceiling)
    (room : (whole.take most).length ≠ most → limit ≤ ceiling) : bound most limit (whole.take most) ≤ ceiling := by
  by_cases full : (whole.take most).length = most
  · obtain shape | ⟨front, last, shape⟩ := List.eq_nil_or_concat (whole.take most)
    · rw [shape] at full
      exact absurd full (Nat.ne_of_lt positive)
    · rw [List.concat_eq_append] at shape
      have listed : last ∈ whole := List.mem_of_mem_take (shape ▸ List.mem_append_right _ (List.mem_singleton_self last))
      rw [shape] at full ⊢
      rw [bound_of_full full]
      exact below last listed
  · rw [bound_of_room full]
    exact room full

theorem bound_take_le_dropped (sorted : whole.Pairwise fun one other => one.1 ≤ other.1) {entry : F × ι}
    (dropped : entry ∈ whole.drop most) : bound most limit (whole.take most) ≤ entry.1 := by
  rw [← List.take_append_drop most whole] at sorted
  have front := (List.pairwise_append.mp sorted).2.2
  have full : (whole.take most).length = most := by
    have some_ := List.length_pos_of_mem dropped
    rw [List.length_drop] at some_
    rw [List.length_take]
    omega
  obtain shape | ⟨before, last, shape⟩ := List.eq_nil_or_concat (whole.take most)
  · rw [shape] at full
    exact absurd full (Nat.ne_of_lt positive)
  · rw [List.concat_eq_append] at shape
    rw [shape] at full front ⊢
    rw [bound_of_full full]
    exact front last (List.mem_append_right _ (List.mem_singleton_self last)) entry dropped

end

theorem offer_nearest (positive : 1 ≤ most) (nearest : Nearest distance most limit seen best) {item : ι}
    (new : item ∉ seen) : Nearest distance most limit (item :: seen) (offer most limit (distance item) item best) := by
  by_cases near : distance item < bound most limit best
  · have permuted := putInOrder_perm (distance item, item) best
    have sorted : (putInOrder (distance item, item) best).Pairwise fun one other => one.1 ≤ other.1 :=
      putInOrder_sorted nearest.sorted
    have size : (putInOrder (distance item, item) best).length = best.length + 1 := permuted.length_eq
    have split := List.take_append_drop most (putInOrder (distance item, item) best)
    rw [offer, if_pos near]
    generalize putInOrder (distance item, item) best = whole at *
    have distinct : (kept whole).Nodup := by
      refine (permuted.map Prod.snd).nodup_iff.mpr (List.nodup_cons.mpr ⟨fun member => new ?_, nearest.distinct⟩)
      obtain ⟨entry, held, rfl⟩ := List.mem_map.mp member
      exact (nearest.among entry held).2.1
    have low : ∀ entry ∈ whole, entry.1 = distance entry.2 ∧ entry.2 ∈ item :: seen ∧
        entry.1 ≤ bound most limit best ∧ entry.1 < limit := by
      intro entry member
      rcases List.mem_cons.mp (permuted.mem_iff.mp member) with rfl | held
      · exact ⟨rfl, List.mem_cons_self, near.le, near.trans_le nearest.bound_le⟩
      · obtain ⟨isDistance, there, inside⟩ := nearest.among entry held
        exact ⟨isDistance, List.mem_cons_of_mem _ there, nearest.le_bound held, inside⟩
    have lowered : bound most limit (whole.take most) ≤ bound most limit best := by
      refine bound_take_le positive (fun entry member => (low entry member).2.2.1) fun room => ?_
      rw [List.length_take] at room
      rw [bound_of_room (by omega)]
    refine ⟨?_, ?_, ?_, ?_, ?_⟩
    · intro entry member
      obtain ⟨isDistance, there, -, inside⟩ := low entry (List.mem_of_mem_take member)
      exact ⟨isDistance, there, inside⟩
    · exact ((List.take_sublist most whole).map Prod.snd).nodup distinct
    · exact sorted.sublist (List.take_sublist most whole)
    · exact List.length_take_le most whole
    · intro other there left
      by_cases listed : other ∈ kept whole
      · -- it fell off the end, so the list is full and all of it is nearer
        obtain ⟨entry, member', rfl⟩ := List.mem_map.mp listed
        have dropped : entry ∈ whole.drop most := by
          have parts := member'
          rw [← split] at parts
          exact (List.mem_append.mp parts).resolve_left fun inFront => left (List.mem_map_of_mem inFront)
        rw [← (low entry member').1]
        exact bound_take_le_dropped positive sorted dropped
      · refine lowered.trans ?_
        rcases List.mem_cons.mp there with rfl | old
        · exact absurd (List.mem_map_of_mem (permuted.mem_iff.mpr List.mem_cons_self)) listed
        · refine nearest.outside other old fun held => listed ?_
          obtain ⟨entry, member, rfl⟩ := List.mem_map.mp held
          exact List.mem_map_of_mem (permuted.mem_iff.mpr (List.mem_cons_of_mem _ member))
  · rw [offer, if_neg near]
    exact List.singleton_append ▸ nearest.skip (by simpa using near)

/-! ## What is kept in the end -/

theorem closest (nearest : Nearest distance most limit seen best) {item : ι} (there : item ∈ seen)
    (left : item ∉ kept best) {inner : ι} (member : inner ∈ kept best) : distance inner ≤ distance item := by
  obtain ⟨entry, held, rfl⟩ := List.mem_map.mp member
  rw [← (nearest.among entry held).1]
  exact (nearest.le_bound held).trans (nearest.outside item there left)

theorem length_kept (nearest : Nearest distance most limit seen best) (unique : seen.Nodup) :
    (kept best).length = min most (seen.countP fun item => distance item < limit) := by
  have size : (kept best).length = best.length := List.length_map _
  have few := nearest.few
  rw [List.countP_eq_length_filter]
  have inside : kept best ⊆ seen.filter fun item => distance item < limit := by
    intro item member
    obtain ⟨entry, held, rfl⟩ := List.mem_map.mp member
    obtain ⟨isDistance, there, near⟩ := nearest.among entry held
    exact List.mem_filter.mpr ⟨there, decide_eq_true (isDistance ▸ near)⟩
  have atMost := (nearest.distinct.subperm inside).length_le
  by_cases full : best.length = most
  · omega
  · have all : (seen.filter fun item => distance item < limit) ⊆ kept best := by
      intro item member
      obtain ⟨there, near⟩ := List.mem_filter.mp member
      by_contra left
      have far := nearest.outside item there left
      rw [bound_of_room full] at far
      exact absurd (of_decide_eq_true near) (not_lt.mpr far)
    have single : (seen.filter fun item => distance item < limit).Nodup := unique.filter _
    have atLeast := (single.subperm all).length_le
    omega

end

end Nearest

end Boom.Foundations
