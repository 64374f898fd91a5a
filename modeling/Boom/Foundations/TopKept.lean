import Boom.Foundations.Newest
import Mathlib.Data.List.Perm.Subperm
import Mathlib.Order.Lattice

/-! # The highest of what was put

Items are put one by one, an item taking the place of a lower one with its key, and from time to
time the lowest are dropped until no more than so many are left.  An item that is not there, nor a
higher one in its place, is then under so many others that it never comes back: what is kept is what
a single look at all items would pick. -/

namespace Boom.Foundations

section

variable {α κ S : Type} [DecidableEq κ] [LinearOrder S] (key : α → κ) (score : α → S) (most : Nat)

def rises (item held : α) : Bool :=
  decide (score held < score item)

def NoHigher (first second : α) : Prop :=
  score first ≤ score second

def above (items : List α) (bound : S) : Nat :=
  items.countP fun item => decide (bound < score item)

def newest (put : List α) : List α :=
  put.filter fun item => decide (∀ other ∈ put, key other = key item → score other ≤ score item)

def topmost (put : List α) : List α :=
  (newest key score put).filter fun item => decide (above score (newest key score put) (score item) < most)

structure Tops (put held : List α) : Prop where
  among : ∀ item ∈ held, item ∈ put
  apart : (held.map key).Nodup
  accounted : ∀ item ∈ put, Outdone key (NoHigher score) held item ∨
    most ≤ above score held (score item)

variable {key score most} {put held : List α}

omit [DecidableEq κ] in
theorem NoHigher.refl (item : α) : NoHigher score item item :=
  le_refl (score item)

omit [DecidableEq κ] in
theorem NoHigher.trans (first second third : α) (low : NoHigher score first second) (high : NoHigher score second third) :
    NoHigher score first third :=
  le_trans low high

theorem above_le_putNewest (item : α) (bound : S) :
    above score held bound ≤ above score (putNewest key (rises score) held item) bound := by
  unfold putNewest above
  split
  · rw [List.countP_map]
    refine List.countP_mono_left fun found _ higher => ?_
    simp only [Function.comp]
    split
    next replaced =>
      have raised : score found < score item := of_decide_eq_true replaced.2
      exact decide_eq_true ((of_decide_eq_true higher).trans raised)
    next => exact higher
  · rw [List.countP_append]
    exact Nat.le_add_right _ _

omit [DecidableEq κ] in
theorem tops_nil : Tops key score most [] [] where
  among := fun _ none_ => none_
  apart := List.nodup_nil
  accounted := fun _ none_ => absurd none_ List.not_mem_nil

section

variable (tops : Tops key score most put held)
include tops

theorem tops_putNewest (item : α) :
    Tops key score most (put ++ [item]) (putNewest key (rises score) held item) where
  among := by
    intro found there
    rw [List.mem_append, List.mem_singleton]
    exact (mem_of_mem_putNewest there).imp (tops.among found) id
  apart := nodup_putNewest tops.apart
  accounted := by
    have outdone {was : α} (there : was ∈ held ∨ was = item) :
        Outdone key (NoHigher score) (putNewest key (rises score) held item) was := by
      refine outdone_putNewest NoHigher.refl ?_ ?_ there
      · exact fun first second raised => le_of_lt (of_decide_eq_true raised)
      · exact fun first second stays => not_lt.mp (of_decide_eq_false stays)
    intro was there
    rcases List.mem_append.mp there with before | isItem
    · rcases tops.accounted was before with higher | buried
      · exact .inl (higher.trans NoHigher.trans fun found there => outdone (.inl there))
      · exact .inr (buried.trans (above_le_putNewest item _))
    · exact .inl (outdone (.inr (List.mem_singleton.mp isItem)))

theorem tops_putAll (items : List α) :
    Tops key score most (put ++ items) (items.foldl (putNewest key (rises score)) held) := by
  induction items generalizing put held with
  | nil => rwa [List.append_nil]
  | cons item rest ih =>
    have later := ih (tops_putNewest tops item)
    rwa [List.append_assoc] at later

omit [DecidableEq κ] in
theorem Tops.perm {held' : List α} (same : held.Perm held') :
    Tops key score most put held' where
  among := fun item there => tops.among item (same.mem_iff.mpr there)
  apart := (same.map key).nodup_iff.mp tops.apart
  accounted := by
    intro item there
    refine (tops.accounted item there).imp ?_ fun buried => buried.trans (same.countP_eq _).le
    intro higher
    obtain ⟨found, inHeld, sameKey, le⟩ := higher
    exact ⟨found, same.mem_iff.mp inHeld, sameKey, le⟩

omit [DecidableEq κ] in
theorem tops_drop (ascending : held.Pairwise fun first second => score first < score second) :
    Tops key score most put (held.drop (held.length - most)) where
  among := fun item there => tops.among item (List.mem_of_mem_drop there)
  apart := by
    rw [List.map_drop]
    exact tops.apart.sublist (List.drop_sublist _ _)
  accounted := by
    have parts : held.take (held.length - most) ++ held.drop (held.length - most) = held := List.take_append_drop _ _
    have order := ascending
    rw [← parts, List.pairwise_append] at order
    -- What is under a dropped item is under as many as are kept.
    have under {bound : S} {dropped : α} (there : dropped ∈ held.take (held.length - most)) (le : bound ≤ score dropped) :
        most ≤ above score (held.drop (held.length - most)) bound := by
      have length := List.length_pos_of_mem there
      rw [List.length_take] at length
      have all : above score (held.drop (held.length - most)) bound = (held.drop (held.length - most)).length := by
        refine List.countP_eq_length.mpr fun item kept => decide_eq_true ?_
        exact le.trans_lt (order.2.2 dropped there item kept)
      rw [all, List.length_drop]
      omega
    intro item there
    rcases tops.accounted item there with ⟨found, inHeld, sameKey, le⟩ | buried
    · rw [← parts, List.mem_append] at inHeld
      rcases inHeld with dropped | kept
      · exact .inr (under dropped le)
      · exact .inl ⟨found, kept, sameKey, le⟩
    · by_cases some_ : ∃ dropped ∈ held.take (held.length - most), score item < score dropped
      · obtain ⟨dropped, there, less⟩ := some_
        exact .inr (under there less.le)
      · refine .inr (buried.trans ?_)
        have none_ : above score (held.take (held.length - most)) (score item) = 0 :=
          List.countP_eq_zero.mpr fun dropped there higher => some_ ⟨dropped, there, of_decide_eq_true higher⟩
        have counts : above score held (score item) = above score (held.take (held.length - most)) (score item) +
            above score (held.drop (held.length - most)) (score item) := by
          rw [above, above, above, ← List.countP_append, parts]
        rw [counts, none_, Nat.zero_add]

end

section Picked

variable (tops : Tops key score most put held) (few : held.length ≤ most) (distinct : (put.map score).Nodup)

omit [DecidableEq κ] [LinearOrder S] in
include distinct in
theorem eq_of_score_eq {first second : α} (there : first ∈ put) (there' : second ∈ put)
    (same : score first = score second) : first = second :=
  List.inj_on_of_nodup_map distinct there there' same

omit [DecidableEq κ] in
include tops few in
theorem outdone_of_le {item high : α} (held_ : item ∈ held) (there : high ∈ put) (le : score item ≤ score high) :
    Outdone key (NoHigher score) held high := by
  refine (tops.accounted high there).resolve_right fun buried => ?_
  have missing : above score held (score high) ≠ held.length := by
    intro all
    exact absurd (of_decide_eq_true (List.countP_eq_length.mp all item held_)) (not_lt.mpr le)
  have most_ : above score held (score high) ≤ held.length := List.countP_le_length
  omega

include tops distinct in
theorem mem_of_outdone {item : α} (new : item ∈ newest key score put) (outdone : Outdone key (NoHigher score) held item) :
    item ∈ held := by
  obtain ⟨there, highest⟩ := List.mem_filter.mp new
  obtain ⟨found, inHeld, sameKey, le⟩ := outdone
  have inPut := tops.among found inHeld
  have ge : score found ≤ score item := of_decide_eq_true highest found inPut sameKey
  rwa [eq_of_score_eq distinct there inPut (le_antisymm le ge)]

include tops few in
theorem mem_newest_of_held {item : α} (held_ : item ∈ held) : item ∈ newest key score put := by
  refine List.mem_filter.mpr ⟨tops.among item held_, decide_eq_true fun other there sameKey => ?_⟩
  by_contra higher
  obtain ⟨found, inHeld, sameAgain, le⟩ := outdone_of_le tops few held_ there (not_le.mp higher).le
  have same : found = item := List.inj_on_of_nodup_map tops.apart inHeld held_ (sameAgain.trans sameKey)
  exact higher (same ▸ le)

omit [DecidableEq κ] in
theorem above_le_of_subset {items others : List α} {bound : S} (apart : items.Nodup)
    (sub : ∀ item ∈ items, bound < score item → item ∈ others) : above score items bound ≤ above score others bound := by
  rw [above, above, List.countP_eq_length_filter, List.countP_eq_length_filter]
  refine (List.Nodup.subperm (apart.filter _) fun item there => ?_).length_le
  obtain ⟨inItems, higher⟩ := List.mem_filter.mp there
  exact List.mem_filter.mpr ⟨sub item inItems (of_decide_eq_true higher), higher⟩

include tops few distinct in
theorem mem_held_iff (item : α) : item ∈ held ↔ item ∈ topmost key score most put := by
  have apart : (newest key score put).Nodup := (List.Nodup.of_map score distinct).filter _
  rw [topmost, List.mem_filter, decide_eq_true_eq]
  constructor
  · intro held_
    refine ⟨mem_newest_of_held tops few held_, ?_⟩
    -- The items above it are all held, and it is not one of them.
    have inSight : above score (newest key score put) (score item) ≤ above score held (score item) := by
      refine above_le_of_subset apart fun high new higher => mem_of_outdone tops distinct new ?_
      exact outdone_of_le tops few held_ (List.mem_filter.mp new).1 higher.le
    have other : above score held (score item) ≠ held.length := fun all =>
      lt_irrefl _ (of_decide_eq_true (List.countP_eq_length.mp all item held_))
    have most_ : above score held (score item) ≤ held.length := List.countP_le_length
    omega
  · rintro ⟨new, lower⟩
    refine mem_of_outdone tops distinct new ((tops.accounted item (List.mem_filter.mp new).1).resolve_right fun buried => ?_)
    have known : above score held (score item) ≤ above score (newest key score put) (score item) :=
      above_le_of_subset (List.Nodup.of_map key tops.apart) fun high inHeld _ => mem_newest_of_held tops few inHeld
    omega

end Picked

end

end Boom.Foundations
