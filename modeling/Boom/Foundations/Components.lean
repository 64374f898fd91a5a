import Mathlib.Data.List.Dedup
import Mathlib.Data.List.Perm.Subperm
import Mathlib.Logic.Equiv.Defs

/-! # Connected components by search

Items are numbered, some of them are near each other, and for every item there is a shortlist
to look for near ones in.  The search grows a group from a seed, and the seeds not yet in a
group are searched one after the other. -/

namespace Boom.Foundations

section Search

variable (near : Nat → Nat → Bool) (neighbors : Nat → List Nat)

def takeUp (skip : List Nat) (current : Nat) (search : List Nat × List Nat) (item : Nat) : List Nat × List Nat :=
  if skip.contains item || search.1.contains item then search
  else if near current item then (search.1 ++ [item], item :: search.2)
  else search

def grow (skip : List Nat) : Nat → List Nat × List Nat → Option (List Nat)
  | _, (group, []) => some group
  | 0, (_, _ :: _) => none
  | fuel + 1, (group, current :: queue) =>
    grow skip fuel ((neighbors current).foldl (takeUp near skip current) (group, queue))

def groupsFrom (fuel : Nat) : List Nat → List Nat → Option (List (List Nat))
  | [], _ => some []
  | seed :: rest, used =>
    if used.contains seed then groupsFrom fuel rest used
    else do
      let group ← grow near neighbors used fuel ([seed], [seed])
      return group :: (← groupsFrom fuel rest (used ++ group))

end Search

/-! ## What is linked -/

section Spec

variable {near : Nat → Nat → Bool} {neighbors : Nat → List Nat} {count : Nat}

def Linked (near : Nat → Nat → Bool) (count : Nat) : Nat → Nat → Prop :=
  Relation.ReflTransGen fun first second => first < count ∧ second < count ∧ near first second = true

structure Shortlisted (near : Nat → Nat → Bool) (neighbors : Nat → List Nat) (count : Nat) : Prop where
  symm : ∀ first second, near first second = true → near second first = true
  listed : ∀ first second, first < count → second < count → near first second = true → second ∈ neighbors first
  bounded : ∀ first, ∀ second ∈ neighbors first, second < count

theorem Linked.symm (graph : Shortlisted near neighbors count) {first second : Nat}
    (linked : Linked near count first second) : Linked near count second first := by
  induction linked with
  | refl => exact .refl
  | tail _ step ih =>
    obtain ⟨inside, inside', isNear⟩ := step
    exact .head ⟨inside', inside, graph.symm _ _ isNear⟩ ih

theorem Linked.mem_of_closed {items : List Nat} {first second : Nat} (linked : Linked near count first second)
    (there : first ∈ items)
    (closed : ∀ item ∈ items, ∀ other, other < count → near item other = true → other ∈ items) : second ∈ items := by
  induction linked with
  | refl => exact there
  | tail _ step ih => exact closed _ ih _ step.2.1 step.2.2

/-! ## One seed -/

structure Searching (near : Nat → Nat → Bool) (count : Nat) (skip : List Nat) (seed : Nat) (group queue : List Nat) :
    Prop where
  nodup : group.Nodup
  seeded : seed ∈ group
  linked : ∀ item ∈ group, item < count ∧ item ∉ skip ∧ Linked near count seed item
  queued : ∀ item ∈ queue, item ∈ group
  closed : ∀ item ∈ group, item ∉ queue → ∀ other, other < count → near item other = true → other ∈ group

variable {skip group queue : List Nat} {seed : Nat}

theorem Searching.start (inside : seed < count) (fresh : seed ∉ skip) : Searching near count skip seed [seed] [seed] where
  nodup := List.nodup_singleton seed
  seeded := List.mem_singleton_self seed
  linked := by
    intro item there
    rw [List.mem_singleton.mp there]
    exact ⟨inside, fresh, .refl⟩
  queued _ there := there
  closed _ there unsearched := absurd there unsearched

theorem foldl_takeUp (current : Nat) (items : List Nat) (group queue : List Nat) : ∃ added : List Nat,
    items.foldl (takeUp near skip current) (group, queue) = (group ++ added, added.reverse ++ queue) ∧
      (∀ item ∈ added, item ∈ items ∧ item ∉ skip ∧ near current item = true) ∧
      (group.Nodup → (group ++ added).Nodup) ∧
      ∀ item ∈ items, near current item = true → item ∈ skip ∨ item ∈ group ++ added := by
  induction items generalizing group queue with
  | nil => exact ⟨[], by simp, by simp, by simp, by simp⟩
  | cons item rest ih =>
    rw [List.foldl_cons, takeUp]
    by_cases known : item ∈ skip ∨ item ∈ group
    · rw [if_pos (by simpa using known)]
      obtain ⟨added, same, isNear, nodup, complete⟩ := ih group queue
      refine ⟨added, same, fun other there => ?_, nodup, ?_⟩
      · exact ⟨List.mem_cons_of_mem _ (isNear other there).1, (isNear other there).2⟩
      · intro other there near_
        rcases List.mem_cons.mp there with rfl | later
        · exact known.imp_right (List.mem_append_left added)
        · exact complete other later near_
    · rw [if_neg (by simpa using known)]
      push Not at known
      split
      next isNear =>
        obtain ⟨added, same, each, nodup, complete⟩ := ih (group ++ [item]) (item :: queue)
        refine ⟨item :: added, by rw [same]; simp, ?_, ?_, ?_⟩
        · intro other there
          rcases List.mem_cons.mp there with rfl | later
          · exact ⟨List.mem_cons_self, known.1, isNear⟩
          · exact ⟨List.mem_cons_of_mem _ (each other later).1, (each other later).2⟩
        · intro distinct
          have extended := nodup (List.nodup_append.mpr ⟨distinct, List.nodup_singleton item, ?_⟩)
          · simpa using extended
          · intro held there other isItem same
            rw [List.mem_singleton.mp isItem] at same
            exact known.2 (same ▸ there)
        · intro other there near_
          rcases List.mem_cons.mp there with rfl | later
          · exact .inr (by simp)
          · exact (complete other later near_).imp_right (by simp)
      next far =>
        obtain ⟨added, same, each, nodup, complete⟩ := ih group queue
        refine ⟨added, same, fun other there => ?_, nodup, ?_⟩
        · exact ⟨List.mem_cons_of_mem _ (each other there).1, (each other there).2⟩
        · intro other there near_
          rcases List.mem_cons.mp there with rfl | later
          · exact absurd near_ far
          · exact complete other later near_

structure Closed (near : Nat → Nat → Bool) (count : Nat) (items : List Nat) : Prop where
  bounded : ∀ item ∈ items, item < count
  near : ∀ item ∈ items, ∀ other, other < count → near item other = true → other ∈ items

theorem Searching.step (graph : Shortlisted near neighbors count) (closed : Closed near count skip) {current : Nat}
    (searching : Searching near count skip seed group (current :: queue)) : ∃ added : List Nat,
    (neighbors current).foldl (takeUp near skip current) (group, queue) = (group ++ added, added.reverse ++ queue) ∧
      Searching near count skip seed (group ++ added) (added.reverse ++ queue) := by
  obtain ⟨added, same, each, nodup, complete⟩ :=
    @foldl_takeUp near skip current (neighbors current) group queue
  have isCurrent : current ∈ group := searching.queued current List.mem_cons_self
  obtain ⟨inside, unskipped, toCurrent⟩ := searching.linked current isCurrent
  refine ⟨added, same, nodup searching.nodup, List.mem_append_left _ searching.seeded, ?_, ?_, ?_⟩
  · intro item there
    rcases List.mem_append.mp there with old | new
    · exact searching.linked item old
    · obtain ⟨listed, fresh, isNear⟩ := each item new
      have inside' := graph.bounded current item listed
      exact ⟨inside', fresh, toCurrent.tail ⟨inside, inside', isNear⟩⟩
  · intro item there
    rcases List.mem_append.mp there with new | old
    · exact List.mem_append_right _ (List.mem_reverse.mp new)
    · exact List.mem_append_left _ (searching.queued item (List.mem_cons_of_mem _ old))
  · intro item there searched other inside' isNear
    rw [List.mem_append, List.mem_reverse, not_or] at searched
    have old : item ∈ group := (List.mem_append.mp there).resolve_right searched.1
    by_cases isItem : item = current
    · rw [isItem] at isNear
      rcases complete other (graph.listed current other inside inside' isNear) isNear with skipped | found
      · -- What was skipped is closed, so the item itself would have been skipped.
        exact absurd (closed.near other skipped current inside (graph.symm _ _ isNear)) unskipped
      · exact found
    · exact List.mem_append_left _ (searching.closed item old (by simp [isItem, searched.2]) other inside' isNear)

theorem Searching.length_le (searching : Searching near count skip seed group queue) : group.length ≤ count := by
  have inRange : group ⊆ List.range count := fun item there => List.mem_range.mpr (searching.linked item there).1
  simpa using (searching.nodup.subperm inRange).length_le

theorem Searching.grow (graph : Shortlisted near neighbors count) (closed : Closed near count skip) {fuel : Nat}
    (searching : Searching near count skip seed group queue) (lasts : count + queue.length ≤ fuel + group.length) :
    ∃ result, grow near neighbors skip fuel (group, queue) = some result ∧
      Searching near count skip seed result [] := by
  induction fuel generalizing group queue with
  | zero =>
    have bounded := searching.length_le
    obtain rfl : queue = [] := List.length_eq_zero_iff.mp (by omega)
    exact ⟨group, rfl, searching⟩
  | succ fuel ih =>
    cases queue with
    | nil => exact ⟨group, rfl, searching⟩
    | cons current queue =>
      obtain ⟨added, same, next⟩ := searching.step graph closed
      obtain ⟨result, found, done⟩ := ih next (by
        simp only [List.length_cons, List.length_append, List.length_reverse] at lasts ⊢
        omega)
      exact ⟨result, by rw [Foundations.grow, same, found], done⟩

theorem Searching.mem_iff (graph : Shortlisted near neighbors count) (searching : Searching near count skip seed group [])
    {item other : Nat} (there : item ∈ group) : other ∈ group ↔ Linked near count item other := by
  have toItem := (searching.linked item there).2.2
  constructor
  · intro there'
    exact (toItem.symm graph).trans (searching.linked other there').2.2
  · intro linked
    exact linked.mem_of_closed there fun held isHeld => searching.closed held isHeld List.not_mem_nil

/-! ## All seeds -/

structure IsComponent (near : Nat → Nat → Bool) (count : Nat) (group : List Nat) : Prop where
  nonempty : group ≠ []
  bounded : ∀ item ∈ group, item < count
  linked : ∀ item ∈ group, ∀ other, other ∈ group ↔ Linked near count item other

theorem groupsFrom_spec (graph : Shortlisted near neighbors count) {seeds used : List Nat}
    (inside : ∀ seed ∈ seeds, seed < count) (closed : Closed near count used) (nodup : used.Nodup) :
    ∃ groups, groupsFrom near neighbors count seeds used = some groups ∧
      (∀ group ∈ groups, IsComponent near count group) ∧ (used ++ groups.flatten).Nodup ∧
      ∀ seed ∈ seeds, seed ∈ used ++ groups.flatten := by
  induction seeds generalizing used with
  | nil => exact ⟨[], rfl, by simp, by simpa using nodup, by simp⟩
  | cons seed rest ih =>
    obtain ⟨first, later⟩ := List.forall_mem_cons.mp inside
    by_cases known : seed ∈ used
    · obtain ⟨groups, found, components, distinct, all⟩ := ih later closed nodup
      refine ⟨groups, by rw [groupsFrom, if_pos (by simpa using known), found], components, distinct, ?_⟩
      exact List.forall_mem_cons.mpr ⟨List.mem_append_left _ known, all⟩
    · obtain ⟨group, grown, done⟩ :=
        (Searching.start first known).grow graph closed (by simp : count + [seed].length ≤ count + [seed].length)
      have component : IsComponent near count group :=
        ⟨List.ne_nil_of_mem done.seeded, fun item there => (done.linked item there).1,
          fun item there other => done.mem_iff graph there⟩
      have closed' : Closed near count (used ++ group) := by
        constructor
        · intro item there
          rcases List.mem_append.mp there with old | new
          · exact closed.bounded item old
          · exact component.bounded item new
        · intro item there other inside' isNear
          rcases List.mem_append.mp there with old | new
          · exact List.mem_append_left _ (closed.near item old other inside' isNear)
          · exact List.mem_append_right _ (done.closed item new List.not_mem_nil other inside' isNear)
      have nodup' : (used ++ group).Nodup := by
        refine List.nodup_append.mpr ⟨nodup, done.nodup, fun item old other new same => ?_⟩
        exact (done.linked other new).2.1 (same ▸ old)
      obtain ⟨groups, found, components, distinct, all⟩ := ih later closed' nodup'
      refine ⟨group :: groups, ?_, List.forall_mem_cons.mpr ⟨component, components⟩, by simpa using distinct, ?_⟩
      · rw [groupsFrom, if_neg (by simpa using known), grown, Option.bind_eq_bind, Option.bind_some, found]
        rfl
      · refine List.forall_mem_cons.mpr ⟨?_, fun other there => by simpa using all other there⟩
        simp [done.seeded]

structure Components (near : Nat → Nat → Bool) (count : Nat) (groups : List (List Nat)) : Prop where
  components : ∀ group ∈ groups, IsComponent near count group
  partition : groups.flatten.Perm (List.range count)

theorem groups_components (graph : Shortlisted near neighbors count) :
    ∃ groups, groupsFrom near neighbors count (List.range count) [] = some groups ∧ Components near count groups := by
  obtain ⟨groups, found, components, distinct, all⟩ :=
    groupsFrom_spec graph (fun seed there => List.mem_range.mp there) ⟨by simp, by simp⟩ List.nodup_nil
  refine ⟨groups, found, components, ?_⟩
  rw [List.nil_append] at distinct
  refine (List.perm_ext_iff_of_nodup distinct List.nodup_range).mpr fun item => ?_
  constructor
  · intro there
    obtain ⟨group, isGroup, inGroup⟩ := List.mem_flatten.mp there
    exact List.mem_range.mpr ((components group isGroup).bounded item inGroup)
  · intro there
    simpa using all item there

theorem Components.map {groups : List (List Nat)} (grouped : Components near count groups) {arrange : List Nat → List Nat}
    (same : ∀ group, (arrange group).Perm group) : Components near count (groups.map arrange) where
  components := by
    intro group there
    obtain ⟨plain, isGroup, rfl⟩ := List.mem_map.mp there
    have component := grouped.components plain isGroup
    refine ⟨fun none => component.nonempty (List.Perm.nil_eq (none ▸ same plain)).symm, ?_, ?_⟩
    · exact fun item listed => component.bounded item ((same plain).mem_iff.mp listed)
    · intro item listed other
      rw [(same plain).mem_iff]
      exact component.linked item ((same plain).mem_iff.mp listed) other
  partition := by
    have flattened := List.Perm.flatMap_left groups fun group _ => same group
    rw [List.flatMap_id'] at flattened
    exact flattened.trans grouped.partition

/-! ## Whatever the order -/

def Together (groups : List (List Nat)) (first second : Nat) : Prop :=
  ∃ group ∈ groups, first ∈ group ∧ second ∈ group

theorem Components.together_iff {groups : List (List Nat)} (grouped : Components near count groups) {first second : Nat}
    (inside : first < count) : Together groups first second ↔ Linked near count first second := by
  constructor
  · rintro ⟨group, isGroup, there, there'⟩
    exact ((grouped.components group isGroup).linked first there second).mp there'
  · intro linked
    have listed : first ∈ groups.flatten := grouped.partition.mem_iff.mpr (List.mem_range.mpr inside)
    obtain ⟨group, isGroup, there⟩ := List.mem_flatten.mp listed
    exact ⟨group, isGroup, there, ((grouped.components group isGroup).linked first there second).mpr linked⟩

theorem Linked.map {near' : Nat → Nat → Bool} {rename : Nat → Nat} (bounded : ∀ item, item < count → rename item < count)
    (same : ∀ first second, first < count → second < count → near first second = true →
      near' (rename first) (rename second) = true) {first second : Nat} (linked : Linked near count first second) :
    Linked near' count (rename first) (rename second) :=
  linked.lift rename fun one other step =>
    ⟨bounded one step.1, bounded other step.2.1, same one other step.1 step.2.1 step.2.2⟩

theorem Components.together_renumbered {near' : Nat → Nat → Bool} {groups groups' : List (List Nat)}
    (grouped : Components near count groups) (grouped' : Components near' count groups') (rename : Fin count ≃ Fin count)
    (same : ∀ first second : Fin count, near' first second = near (rename first) (rename second))
    (first second : Fin count) : Together groups' first second ↔ Together groups (rename first) (rename second) := by
  rw [grouped'.together_iff first.isLt, grouped.together_iff (rename first).isLt]
  let forward (item : Nat) : Nat := if inside : item < count then rename ⟨item, inside⟩ else item
  let back (item : Nat) : Nat := if inside : item < count then rename.symm ⟨item, inside⟩ else item
  have forward_eq (item : Fin count) : forward item = rename item := dif_pos item.isLt
  have back_eq (item : Fin count) : back item = rename.symm item := dif_pos item.isLt
  constructor
  · intro linked
    have mapped := @Linked.map near' count near forward (fun item inside => by
      rw [forward_eq ⟨item, inside⟩]
      exact (rename _).isLt) (fun one other inside inside' isNear => by
      rw [forward_eq ⟨one, inside⟩, forward_eq ⟨other, inside'⟩, ← same]
      exact isNear) _ _ linked
    rwa [forward_eq, forward_eq] at mapped
  · intro linked
    have mapped := @Linked.map near count near' back (fun item inside => by
      rw [back_eq ⟨item, inside⟩]
      exact (rename.symm _).isLt) (fun one other inside inside' isNear => by
      rw [back_eq ⟨one, inside⟩, back_eq ⟨other, inside'⟩, same, rename.apply_symm_apply, rename.apply_symm_apply]
      exact isNear) _ _ linked
    rwa [back_eq, back_eq, rename.symm_apply_apply, rename.symm_apply_apply] at mapped

end Spec

end Boom.Foundations
