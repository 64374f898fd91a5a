import Mathlib.Data.List.Induction
import Mathlib.Data.List.Nodup

/-! # Groups by key

Items are pushed to the group of their key, which begins with the first of them.  The groups stand
in the order their keys appear in, each with its items in the order they came in. -/

namespace Boom.Foundations

variable {κ α : Type} [DecidableEq κ]

def pushTo (key : κ) (item : α) : List (κ × List α) → List (κ × List α)
  | [] => [(key, [item])]
  | (other, members) :: rest =>
    if other = key then (other, members ++ [item]) :: rest else (other, members) :: pushTo key item rest

def grouped (key : α → κ) (items : List α) : List (κ × List α) :=
  items.foldl (fun groups item => pushTo (key item) item groups) []

def appear (keys : List κ) (key : κ) : List κ := if key ∈ keys then keys else keys ++ [key]

def appeared (key : α → κ) (items : List α) : List κ := items.foldl (fun keys item => appear keys (key item)) []

example : grouped (· % 2) [1, 2, 3] = [(1, [1, 3]), (0, [2])] := by decide +kernel

variable {key : κ} {keys : List κ} {item : α} {items : List α} {of : α → κ}

/-! ## The keys -/

theorem mem_appear {other : κ} : other ∈ appear keys key ↔ other ∈ keys ∨ other = key := by
  unfold appear
  split
  next there =>
    constructor
    · exact .inl
    · rintro (old | rfl)
      · exact old
      · exact there
  next => simp

theorem nodup_appear (distinct : keys.Nodup) : (appear keys key).Nodup := by
  unfold appear
  split
  next => exact distinct
  next new =>
    refine List.nodup_append.mpr ⟨distinct, List.nodup_singleton key, ?_⟩
    intro old there other isKey same
    exact new (List.mem_singleton.mp isKey ▸ same ▸ there)

theorem appeared_concat (of : α → κ) (items : List α) (item : α) :
    appeared of (items ++ [item]) = appear (appeared of items) (of item) := by
  simp [appeared]

theorem mem_appeared : key ∈ appeared of items ↔ ∃ item ∈ items, of item = key := by
  induction items using List.reverseRecOn with
  | nil => simp [appeared]
  | append_singleton items item ih =>
    rw [appeared_concat, mem_appear, ih]
    simp only [List.mem_append, List.mem_singleton]
    constructor
    · rintro (⟨old, there, same⟩ | same)
      · exact ⟨old, .inl there, same⟩
      · exact ⟨item, .inr rfl, same.symm⟩
    · rintro ⟨old, there | rfl, same⟩
      · exact .inl ⟨old, there, same⟩
      · exact .inr same.symm

theorem nodup_appeared (of : α → κ) (items : List α) : (appeared of items).Nodup := by
  induction items using List.reverseRecOn with
  | nil => exact .nil
  | append_singleton items item ih =>
    rw [appeared_concat]
    exact nodup_appear ih

/-! ## The groups -/

theorem pushTo_of_notMem {members : κ → List α} (new : key ∉ keys) :
    pushTo key item (keys.map fun other => (other, members other)) =
      keys.map (fun other => (other, members other)) ++ [(key, [item])] := by
  induction keys with
  | nil => rfl
  | cons other rest ih =>
    obtain ⟨different, new⟩ := not_or.mp (List.mem_cons.not.mp new)
    rw [List.map_cons, pushTo, if_neg (Ne.symm different), ih new, List.cons_append]

theorem pushTo_of_mem {members : κ → List α} (distinct : keys.Nodup) (there : key ∈ keys) :
    pushTo key item (keys.map fun other => (other, members other)) =
      keys.map fun other => (other, if key = other then members other ++ [item] else members other) := by
  induction keys with
  | nil => simp at there
  | cons other rest ih =>
    obtain ⟨single, distinct⟩ := List.nodup_cons.mp distinct
    rw [List.map_cons, List.map_cons, pushTo]
    by_cases same : other = key
    · subst same
      rw [if_pos rfl, if_pos rfl, List.cons.injEq]
      refine ⟨rfl, List.map_congr_left fun later isLater => ?_⟩
      have different : other ≠ later := by
        rintro rfl
        exact single isLater
      rw [if_neg different]
    · have later : key ∈ rest := (List.mem_cons.mp there).resolve_left (Ne.symm same)
      rw [if_neg same, if_neg (Ne.symm same), ih distinct later]

theorem grouped_eq (of : α → κ) (items : List α) :
    grouped of items = (appeared of items).map fun key => (key, items.filter (of · = key)) := by
  induction items using List.reverseRecOn with
  | nil => rfl
  | append_singleton items item ih =>
    have step : grouped of (items ++ [item]) = pushTo (of item) item (grouped of items) := by simp [grouped]
    rw [step, ih, appeared_concat]
    unfold appear
    split
    next there =>
      rw [pushTo_of_mem (nodup_appeared of items) there]
      refine List.map_congr_left fun key _ => ?_
      by_cases same : of item = key
      · simp [same, List.filter_append]
      · simp [same, List.filter_append]
    next new =>
      rw [pushTo_of_notMem new, List.map_append]
      congr 1
      · refine List.map_congr_left fun key there => ?_
        have different : of item ≠ key := fun same => new (same ▸ there)
        simp [List.filter_append, different]
      · -- No item before has the key.
        have none_ : items.filter (fun old => decide (of old = of item)) = [] := by
          refine List.filter_eq_nil_iff.mpr fun old there => ?_
          intro same
          exact new (mem_appeared.mpr ⟨old, there, of_decide_eq_true same⟩)
        simp [List.filter_append, none_]

theorem mem_grouped {members : List α} :
    (key, members) ∈ grouped of items ↔ (∃ item ∈ items, of item = key) ∧ members = items.filter (of · = key) := by
  rw [grouped_eq, ← mem_appeared]
  simp only [List.mem_map, Prod.mk.injEq]
  constructor
  · rintro ⟨_, there, rfl, rfl⟩
    exact ⟨there, rfl⟩
  · rintro ⟨there, rfl⟩
    exact ⟨key, there, rfl, rfl⟩

theorem nodup_keys_grouped (of : α → κ) (items : List α) : ((grouped of items).map Prod.fst).Nodup := by
  rw [grouped_eq, List.map_map]
  exact (List.map_id _).symm ▸ nodup_appeared of items

/-! ## A pass over entries with distinct keys -/

section

variable {σ β ε : Type} (step : σ → ε → σ) (read : σ → β) {result : β} {keyOf : ε → κ} {entries : List ε} {entry : ε}

omit [DecidableEq κ] in
theorem foldl_of_notMem (steps : ∀ entry ∈ entries, ∀ state, keyOf entry ≠ key → read (step state entry) = read state)
    (absent : ∀ entry ∈ entries, keyOf entry ≠ key) (start : σ) : read (entries.foldl step start) = read start := by
  induction entries generalizing start with
  | nil => rfl
  | cons first rest ih =>
    obtain ⟨own, later⟩ := List.forall_mem_cons.mp steps
    obtain ⟨other, others⟩ := List.forall_mem_cons.mp absent
    rw [List.foldl_cons, ih later others, own start other]

omit [DecidableEq κ] in
theorem foldl_of_mem (steps : ∀ entry ∈ entries, ∀ state, keyOf entry ≠ key → read (step state entry) = read state)
    (sets : ∀ state, read (step state entry) = result) (isKey : keyOf entry = key)
    (distinct : (entries.map keyOf).Nodup) (there : entry ∈ entries) (start : σ) :
    read (entries.foldl step start) = result := by
  induction entries generalizing start with
  | nil => simp at there
  | cons first rest ih =>
    obtain ⟨-, later⟩ := List.forall_mem_cons.mp steps
    obtain ⟨new, distinct⟩ := List.nodup_cons.mp distinct
    rcases List.mem_cons.mp there with rfl | there
    · have absent : ∀ other ∈ rest, keyOf other ≠ key := by
        intro other isOther same
        exact new (List.mem_map.mpr ⟨other, isOther, same.trans isKey.symm⟩)
      rw [List.foldl_cons, foldl_of_notMem step read later absent, sets]
    · exact ih later distinct there _

end

end Boom.Foundations
