import Mathlib.Data.List.Nodup

/-! # One item for each key

Items are put into a list one by one; an item takes the place of the one with its key when
it is newer.  Whatever was put is then outdone by the item that is there for its key. -/

namespace Boom.Foundations

variable {α κ : Type} [DecidableEq κ]

def putNewest (key : α → κ) (newer : α → α → Bool) (kept : List α) (item : α) : List α :=
  if kept.any fun held => key held = key item then
    kept.map fun held => if key held = key item ∧ newer item held = true then item else held
  else kept ++ [item]

variable {key : α → κ} {newer : α → α → Bool} {kept items : List α} {item : α}

theorem mem_of_mem_putNewest {found : α} (member : found ∈ putNewest key newer kept item) :
    found ∈ kept ∨ found = item := by
  unfold putNewest at member
  split at member
  next =>
    obtain ⟨held, inKept, rfl⟩ := List.mem_map.mp member
    split
    next => exact .inr rfl
    next => exact .inl inKept
  next => simpa using member

theorem mem_of_mem_foldl_putNewest {found : α} (member : found ∈ items.foldl (putNewest key newer) kept) :
    found ∈ kept ∨ found ∈ items := by
  induction items generalizing kept with
  | nil => exact .inl member
  | cons item rest ih =>
    rcases ih member with inPut | later
    · rcases mem_of_mem_putNewest inPut with before | rfl
      · exact .inl before
      · exact .inr List.mem_cons_self
    · exact .inr (List.mem_cons_of_mem item later)

theorem nodup_putNewest (apart : (kept.map key).Nodup) : ((putNewest key newer kept item).map key).Nodup := by
  unfold putNewest
  split
  next =>
    have sameKeys : (kept.map fun held => if key held = key item ∧ newer item held = true then item else held).map key =
        kept.map key := by
      rw [List.map_map]
      refine List.map_congr_left fun held _ => ?_
      simp only [Function.comp]
      split
      next replaced => exact replaced.1.symm
      next => rfl
    rw [sameKeys]
    exact apart
  next absent =>
    have new : key item ∉ kept.map key := by
      intro member
      obtain ⟨held, inKept, sameKey⟩ := List.mem_map.mp member
      exact absent (List.any_eq_true.mpr ⟨held, inKept, by simpa using sameKey⟩)
    rw [List.map_append]
    exact apart.append (List.nodup_singleton _) (List.disjoint_singleton.mpr new)

theorem nodup_foldl_putNewest (apart : (kept.map key).Nodup) :
    ((items.foldl (putNewest key newer) kept).map key).Nodup := by
  induction items generalizing kept with
  | nil => exact apart
  | cons item rest ih => exact ih (nodup_putNewest apart)

theorem map_putNewest {β : Type} {short : α → β} {key' : β → κ} {newer' : β → β → Bool}
    (sameKey : ∀ item, key' (short item) = key item)
    (sameOrder : ∀ item held, newer' (short item) (short held) = newer item held) :
    (putNewest key newer kept item).map short = putNewest key' newer' (kept.map short) (short item) := by
  have present : (kept.map short).any (fun held => key' held = key' (short item)) = kept.any fun held => key held = key item := by
    rw [List.any_map]
    simp only [Function.comp_def, sameKey]
  unfold putNewest
  rw [present]
  split
  · rw [List.map_map, List.map_map]
    refine List.map_congr_left fun held _ => ?_
    simp only [Function.comp, sameKey, sameOrder]
    split <;> rfl
  · rw [List.map_append, List.map_singleton]

theorem find?_putNewest (found : κ) : (putNewest key newer kept item).find? (key · = found) =
    if key item = found ∧ (kept.find? (key · = found)).all (newer item) = true then some item
    else kept.find? (key · = found) := by
  unfold putNewest
  split
  next present =>
    have sameKeys : ((key · = found) : α → Bool) ∘ (fun held => if key held = key item ∧ newer item held = true then item else held) =
        (key · = found) := by
      funext held
      simp only [Function.comp]
      split
      next replaced => simp only [replaced.1]
      next => rfl
    rw [List.find?_map, sameKeys]
    cases there : kept.find? (key · = found) with
    | none =>
      obtain ⟨held, inKept, isKey⟩ := List.any_eq_true.mp present
      have other : key item ≠ found := by
        rintro rfl
        exact absurd isKey (List.find?_eq_none.mp there held inKept)
      simp [other]
    | some held =>
      have isKey : key held = found := by simpa using List.find?_some there
      subst isKey
      simp only [Option.map_some, Option.all_some, eq_comm]
      split <;> rfl
  next absent =>
    rw [List.find?_append]
    by_cases isKey : key item = found
    · have none_ : kept.find? (key · = found) = none := by
        rw [List.find?_eq_none]
        intro held there same
        exact absent (List.any_eq_true.mpr ⟨held, there, by simpa [isKey] using same⟩)
      simp [isKey, none_]
    · simp [isKey]

theorem find?_of_mem (apart : (kept.map key).Nodup) {held : α} (there : held ∈ kept) :
    kept.find? (key · = key held) = some held := by
  induction kept with
  | nil => cases there
  | cons first rest ih =>
    rw [List.map_cons, List.nodup_cons] at apart
    rcases List.mem_cons.mp there with rfl | later
    · simp
    · have other : key first ≠ key held := fun same => apart.1 (same ▸ List.mem_map_of_mem later)
      rw [List.find?_cons_of_neg (by simpa using other)]
      exact ih apart.2 later

/-! ## What is outdone -/

def Outdone (key : α → κ) (le : α → α → Prop) (items : List α) (item : α) : Prop :=
  ∃ found ∈ items, key found = key item ∧ le item found

variable {le : α → α → Prop}

omit [DecidableEq κ] in
theorem Outdone.trans (trans : ∀ first second third, le first second → le second third → le first third)
    {more : List α} (outdone : Outdone key le items item)
    (each : ∀ found ∈ items, Outdone key le more found) : Outdone key le more item := by
  obtain ⟨found, member, sameKey, older⟩ := outdone
  obtain ⟨newest, inMore, sameAgain, olderAgain⟩ := each found member
  exact ⟨newest, inMore, sameAgain.trans sameKey, trans _ _ _ older olderAgain⟩

section Order

variable (refl : ∀ item, le item item) (trans : ∀ first second third, le first second → le second third → le first third)
  (takes : ∀ first second, newer first second = true → le second first)
  (leaves : ∀ first second, newer first second = false → le first second)

include refl takes leaves

theorem outdone_putNewest {put : α} (was : put ∈ kept ∨ put = item) :
    Outdone key le (putNewest key newer kept item) put := by
  unfold putNewest
  split
  next present =>
    obtain ⟨other, inKept, isKey⟩ := List.any_eq_true.mp present
    have sameKey : key other = key item := by simpa using isKey
    rcases was with before | rfl
    · refine ⟨_, List.mem_map_of_mem before, ?_⟩
      split
      next replaced => exact ⟨replaced.1.symm, takes item put replaced.2⟩
      next => exact ⟨rfl, refl put⟩
    · refine ⟨_, List.mem_map_of_mem inKept, ?_⟩
      split
      next => exact ⟨rfl, refl put⟩
      next stays =>
        refine ⟨sameKey, leaves put other ?_⟩
        exact Bool.eq_false_iff.mpr fun isNewer => stays ⟨sameKey, isNewer⟩
  next =>
    have member : put ∈ kept ++ [item] := by simpa using was
    exact ⟨put, member, rfl, refl put⟩

include trans

theorem outdone_foldl_putNewest {put : α} (was : put ∈ kept ∨ put ∈ items) :
    Outdone key le (items.foldl (putNewest key newer) kept) put := by
  induction items generalizing kept put with
  | nil =>
    have before : put ∈ kept := by simpa using was
    exact ⟨put, before, rfl, refl put⟩
  | cons item rest ih =>
    rw [List.foldl_cons]
    have first : put ∈ kept ∨ put = item → Outdone key le (rest.foldl (putNewest key newer)
        (putNewest key newer kept item)) put := fun wasPut =>
      (outdone_putNewest refl takes leaves wasPut).trans trans fun found inPut => ih (.inl inPut)
    rcases was with before | member
    · exact first (.inl before)
    · rcases List.mem_cons.mp member with same | later
      · exact first (.inr same)
      · exact ih (.inr later)

end Order

end Boom.Foundations
