import Boom.Foundations.Except
import Boom.Foundations.Grouped
import Mathlib.Data.List.Dedup
import Mathlib.Data.List.Perm.Basic

/-! # Rows gathered by key

Rows with a key each are joined to the group before them when that has their key, and begin one
otherwise.  The groups are those of the keys exactly when no row of another key stands between
two rows of one. -/

namespace Boom.Foundations

section

variable {κ α : Type} [DecidableEq κ]

def join (groups : List (κ × List α)) (row : κ × α) : List (κ × List α) :=
  match groups.getLast? with
  | none => [(row.1, [row.2])]
  | some last =>
    if last.1 = row.1 then groups.dropLast ++ [(last.1, last.2 ++ [row.2])] else groups ++ [(row.1, [row.2])]

def consecutive (rows : List (κ × α)) : List (κ × List α) := rows.foldl join []

def membersOf (key : κ) (rows : List (κ × α)) : List α := (rows.filter fun row => row.1 = key).map Prod.snd

def keysOf (rows : List (κ × α)) : List κ := (rows.map Prod.fst).dedup

def IsGathered (rows : List (κ × α)) : Prop :=
  ∀ key other, key ≠ other → ¬ [key, other, key].Sublist (rows.map Prod.fst)

def rowsOf (group : κ × List α) : List (κ × α) := group.2.map fun item => (group.1, item)

/-! ## From the first row on -/

def joinFrom (key : κ) (members : List α) : List (κ × α) → List (κ × List α)
  | [] => [(key, members)]
  | row :: rest =>
    if key = row.1 then joinFrom key (members ++ [row.2]) rest else (key, members) :: joinFrom row.1 [row.2] rest

variable {key : κ} {members : List α} {rows : List (κ × α)}

theorem foldl_join (groups : List (κ × List α)) (key : κ) (members : List α) (rows : List (κ × α)) :
    rows.foldl join (groups ++ [(key, members)]) = groups ++ joinFrom key members rows := by
  induction rows generalizing groups key members with
  | nil => rfl
  | cons row rest ih =>
    rw [List.foldl_cons, joinFrom, join, List.getLast?_concat]
    dsimp only
    split
    · rw [List.dropLast_concat, ih]
    · rw [ih, List.append_assoc, List.singleton_append]

theorem consecutive_cons (row : κ × α) (rows : List (κ × α)) :
    consecutive (row :: rows) = joinFrom row.1 [row.2] rows := by
  simpa [consecutive, join] using foldl_join [] row.1 [row.2] rows

theorem flatMap_joinFrom : (joinFrom key members rows).flatMap rowsOf = rowsOf (key, members) ++ rows := by
  induction rows generalizing key members with
  | nil => simp [joinFrom]
  | cons row rest ih =>
    rw [joinFrom]
    split
    · next same =>
      rw [ih]
      simp [rowsOf, same]
    · rw [List.flatMap_cons, ih]
      simp [rowsOf]

theorem mem_keys_joinFrom {other : κ} :
    other ∈ (joinFrom key members rows).map Prod.fst ↔ other = key ∨ other ∈ rows.map Prod.fst := by
  induction rows generalizing key members with
  | nil => simp [joinFrom]
  | cons row rest ih =>
    rw [joinFrom]
    split
    · next same =>
      rw [ih, List.map_cons, List.mem_cons, same]
      tauto
    · rw [List.map_cons, List.mem_cons, ih, List.map_cons, List.mem_cons]

omit [DecidableEq κ] in
theorem between_cons_cons {one other : κ} (differ : one ≠ other) {keys : List κ} :
    [one, other, one].Sublist (key :: key :: keys) ↔ [one, other, one].Sublist (key :: keys) := by
  constructor
  · intro sub
    rcases List.sublist_cons_iff.mp sub with later | ⟨tail, same, later⟩
    · exact later
    · obtain ⟨rfl, rfl⟩ := List.cons.inj same
      rcases List.sublist_cons_iff.mp later with later | ⟨_, same, -⟩
      · exact later.cons_cons _
      · exact absurd (List.cons.inj same).1.symm differ
  · exact List.Sublist.cons _

theorem nodup_keys_joinFrom : ((joinFrom key members rows).map Prod.fst).Nodup ↔
    ∀ one other, one ≠ other → ¬ [one, other, one].Sublist (key :: rows.map Prod.fst) := by
  induction rows generalizing key members with
  | nil =>
    refine iff_of_true (List.nodup_singleton key) fun one other _ sub => ?_
    have long := sub.length_le
    simp at long
  | cons row rest ih =>
    rw [joinFrom, List.map_cons]
    split
    · next same =>
      rw [ih, same]
      exact forall₂_congr fun one other => imp_congr_right fun differ => not_congr (between_cons_cons differ).symm
    · next differ =>
      rw [List.map_cons, List.nodup_cons, ih, mem_keys_joinFrom]
      constructor
      · rintro ⟨fresh, gathered⟩ one other differ' sub
        rcases List.sublist_cons_iff.mp sub with later | ⟨tail, same, later⟩
        · exact gathered one other differ' later
        · obtain ⟨rfl, rfl⟩ := List.cons.inj same
          have again := later.subset (List.mem_cons_of_mem _ List.mem_cons_self)
          exact fresh (List.mem_cons.mp again)
      · intro gathered
        refine ⟨?_, fun one other differ' sub => gathered one other differ' (sub.cons _)⟩
        rintro (same | again)
        · exact differ same
        · exact gathered key row.1 differ (((List.singleton_sublist.mpr again).cons_cons _).cons_cons _)

/-! ## All rows -/

theorem flatMap_consecutive (rows : List (κ × α)) : (consecutive rows).flatMap rowsOf = rows := by
  cases rows with
  | nil => rfl
  | cons row rest => simp [consecutive_cons, flatMap_joinFrom, rowsOf]

theorem nodup_keys_iff (rows : List (κ × α)) : ((consecutive rows).map Prod.fst).Nodup ↔ IsGathered rows := by
  cases rows with
  | nil => exact iff_of_true List.nodup_nil fun _ _ _ sub => by simpa using sub.length_le
  | cons row rest =>
    rw [consecutive_cons, nodup_keys_joinFrom, IsGathered, List.map_cons]

variable {rows : List (κ × α)}

theorem mem_keys_consecutive : key ∈ (consecutive rows).map Prod.fst ↔ key ∈ keysOf rows := by
  cases rows with
  | nil => rfl
  | cons row rest =>
    rw [consecutive_cons, mem_keys_joinFrom, keysOf, List.mem_dedup, List.map_cons, List.mem_cons]

theorem isGathered_of_length (same : (consecutive rows).length = (keysOf rows).length) :
    IsGathered rows := by
  rw [← nodup_keys_iff]
  have perm : ((consecutive rows).map Prod.fst).dedup.Perm (keysOf rows) :=
    (List.perm_ext_iff_of_nodup (List.nodup_dedup _) (List.nodup_dedup _)).mpr fun key => by
      rw [List.mem_dedup, mem_keys_consecutive, keysOf]
  have whole := (List.dedup_sublist ((consecutive rows).map Prod.fst)).eq_of_length
    (by rw [perm.length_eq, List.length_map, same])
  exact List.dedup_eq_self.mp whole

theorem membersOf_append (key : κ) (rows later : List (κ × α)) :
    membersOf key (rows ++ later) = membersOf key rows ++ membersOf key later := by
  simp [membersOf]

theorem membersOf_rowsOf (key : κ) (group : κ × List α) :
    membersOf key (rowsOf group) = if group.1 = key then group.2 else [] := by
  rw [membersOf, rowsOf, List.filter_map, List.map_map]
  have back : (Prod.snd ∘ fun item : α => (group.1, item)) = id := rfl
  rw [back, List.map_id]
  split
  · next same => exact List.filter_eq_self.mpr fun item _ => decide_eq_true same
  · next differ => exact List.filter_eq_nil_iff.mpr fun item _ => by simpa using differ

theorem membersOf_flatMap {groups : List (κ × List α)} (once : (groups.map Prod.fst).Nodup) {group : κ × List α}
    (there : group ∈ groups) : membersOf group.1 (groups.flatMap rowsOf) = group.2 := by
  induction groups with
  | nil => cases there
  | cons first rest ih =>
    rw [List.map_cons, List.nodup_cons] at once
    rw [List.flatMap_cons, membersOf_append, membersOf_rowsOf]
    rcases List.mem_cons.mp there with rfl | later
    · have none_ : membersOf group.1 (rest.flatMap rowsOf) = [] := by
        rw [membersOf, List.map_eq_nil_iff, List.filter_eq_nil_iff]
        intro row isRow
        obtain ⟨other, isOther, isRow⟩ := List.mem_flatMap.mp isRow
        obtain ⟨item, -, rfl⟩ := List.mem_map.mp isRow
        rw [decide_eq_true_eq]
        intro same
        exact once.1 (same ▸ List.mem_map_of_mem isOther)
      rw [if_pos rfl, none_, List.append_nil]
    · have differ : first.1 ≠ group.1 := fun same => once.1 (same ▸ List.mem_map_of_mem later)
      rw [if_neg differ, ih once.2 later, List.nil_append]

theorem foldl_appear_eq {seen : List κ} (once : (seen ++ (joinFrom key members rows).map Prod.fst).Nodup) :
    (rows.map Prod.fst).foldl appear (seen ++ [key]) = seen ++ (joinFrom key members rows).map Prod.fst := by
  induction rows generalizing seen key members with
  | nil => rfl
  | cons row rest ih =>
    rw [joinFrom] at once ⊢
    rw [List.map_cons, List.foldl_cons]
    split at once
    · next same =>
      have again : appear (seen ++ [key]) row.1 = seen ++ [key] := if_pos (by simp [same])
      rw [if_pos same, again, ih once]
    · next differ =>
      rw [if_neg differ, List.map_cons]
      rw [List.map_cons, List.append_cons] at once
      have fresh : row.1 ∉ seen ++ [key] := by
        intro there
        exact (List.nodup_append.mp once).2.2 row.1 there row.1 (mem_keys_joinFrom.mpr (.inl rfl)) rfl
      have new : appear (seen ++ [key]) row.1 = seen ++ [key] ++ [row.1] := if_neg fresh
      rw [new, ih once, List.append_assoc, List.singleton_append]

theorem keys_consecutive (gathered : IsGathered rows) : (consecutive rows).map Prod.fst = appeared Prod.fst rows := by
  cases rows with
  | nil => rfl
  | cons row rest =>
    have once := (nodup_keys_iff _).mpr gathered
    rw [consecutive_cons] at once ⊢
    have keys : (rest.map Prod.fst).foldl appear ([] ++ [row.1]) = [] ++ (joinFrom row.1 [row.2] rest).map Prod.fst :=
      foldl_appear_eq once
    rw [List.foldl_map, List.nil_append] at keys
    exact keys.symm

theorem consecutive_eq (gathered : IsGathered rows) :
    consecutive rows = (appeared Prod.fst rows).map fun key => (key, membersOf key rows) := by
  rw [← keys_consecutive gathered, List.map_map]
  have once := (nodup_keys_iff rows).mpr gathered
  refine (List.map_id _).symm.trans (List.map_congr_left fun group there => ?_)
  have members := membersOf_flatMap once there
  rw [flatMap_consecutive] at members
  exact Prod.ext rfl members.symm

theorem groups_perm (gathered : IsGathered rows) :
    ((consecutive rows).map Prod.snd).Perm ((keysOf rows).map (membersOf · rows)) := by
  have once := (nodup_keys_iff rows).mpr gathered
  have each : (consecutive rows).map Prod.snd = ((consecutive rows).map Prod.fst).map (membersOf · rows) := by
    rw [List.map_map]
    refine List.map_congr_left fun group there => ?_
    have members := membersOf_flatMap once there
    rw [flatMap_consecutive] at members
    exact members.symm
  rw [each]
  exact ((List.perm_ext_iff_of_nodup once (List.nodup_dedup _)).mpr fun key => mem_keys_consecutive).map _

/-! ## Rows in another order -/

theorem keysOf_perm {rows rows' : List (κ × α)} (perm : rows.Perm rows') : (keysOf rows).Perm (keysOf rows') :=
  (perm.map Prod.fst).dedup

theorem membersOf_perm {rows rows' : List (κ × α)} (perm : rows.Perm rows') (key : κ) :
    (membersOf key rows).Perm (membersOf key rows') :=
  (perm.filter _).map _

theorem mem_membersOf {key : κ} {item : α} : item ∈ membersOf key rows ↔ (key, item) ∈ rows := by
  simp only [membersOf, List.mem_map, List.mem_filter, decide_eq_true_eq, Prod.exists]
  constructor
  · rintro ⟨_, _, ⟨there, rfl⟩, rfl⟩
    exact there
  · intro there
    exact ⟨key, item, ⟨there, rfl⟩, rfl⟩

end

/-! ## Rows that are read -/

section

variable {ε α β : Type} {step : α → Except ε β}

theorem mapM_eq_ok_iff {lines : List α} {rows : List β} :
    lines.mapM step = .ok rows ↔ List.Forall₂ (fun line row => step line = .ok row) lines rows := by
  induction lines generalizing rows with
  | nil => simp [pure, Except.pure, eq_comm]
  | cons line rest ih =>
    rw [List.mapM_cons, List.forall₂_cons_left_iff]
    simp only [bind_eq_ok, ih]
    constructor
    · rintro ⟨row, isRow, rows', areRows, same⟩
      exact ⟨row, rows', isRow, areRows, (Except.ok.inj same).symm⟩
    · rintro ⟨row, rows', isRow, areRows, rfl⟩
      exact ⟨row, isRow, rows', areRows, rfl⟩

theorem exists_mapM_of_perm {lines lines' : List α} (perm : lines.Perm lines') {rows : List β}
    (read : lines.mapM step = .ok rows) : ∃ rows', lines'.mapM step = .ok rows' ∧ rows.Perm rows' := by
  obtain ⟨rows', areRows, same⟩ := List.perm_comp_forall₂ perm.symm (mapM_eq_ok_iff.mp read)
  exact ⟨rows', mapM_eq_ok_iff.mpr areRows, same.symm⟩

end

end Boom.Foundations
